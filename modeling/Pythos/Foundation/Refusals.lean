import Pythos.Foundation.Checked

/-!
# Which errors a computation returns

`Answers` is the triple for the errors of a checked computation: a value has a postcondition, and an error
that is returned is one of the allowed ones. Nothing is said about panics and divergence.
-/

namespace Pythos.Foundation

variable {ε α β : Type} {allowed : ε → Prop} {post : α → Prop}

/-- A value of the computation satisfies `post`, and an error it returns is allowed. -/
def Answers (allowed : ε → Prop) (x : Checked ε α) (post : α → Prop) : Prop :=
  match x with
  | .ok value => post value
  | .error (.returned error) => allowed error
  | .error _ => True

/-- The computation returns only allowed errors. -/
abbrev Only (allowed : ε → Prop) (x : Checked ε α) : Prop :=
  Answers allowed x fun _ ↦ True

variable {x : Checked ε α} {error : ε} {c : Prop} {option : Option α} {items : List α} {state : β} {value : α}

theorem Answers.of_error (h : Answers allowed x post) (herror : x = .error (.returned error)) :
    allowed error := by
  rw [herror] at h
  exact h

theorem Answers.mono {post' : α → Prop} (h : Answers allowed x post)
    (hpost : ∀ value, post value → post' value) : Answers allowed x post' := by
  cases x with
  | ok value => exact hpost value h
  | error fault => cases fault <;> exact h

theorem Only.of_safe (h : Only allowed x) (hsafe : Safe x post) : Answers allowed x post := by
  cases x with
  | ok value => exact hsafe
  | error fault => cases fault <;> exact h

@[simp] theorem answers_ok : Answers allowed (.ok value) post ↔ post value := Iff.rfl

@[simp] theorem answers_pure : Answers allowed (pure value) post ↔ post value := Iff.rfl

@[simp] theorem answers_fail : Answers allowed (fail error : Checked ε α) post ↔ allowed error := Iff.rfl

@[simp] theorem answers_bind {x : Checked ε β} {f : β → Checked ε α} :
    Answers allowed (x >>= f) post ↔ Answers allowed x fun value ↦ Answers allowed (f value) post := by
  cases x with
  | ok value => exact Iff.rfl
  | error fault => cases fault <;> exact Iff.rfl

@[simp] theorem answers_map {x : Checked ε β} {f : β → α} :
    Answers allowed (f <$> x) post ↔ Answers allowed x fun value ↦ post (f value) := by
  cases x with
  | ok value => exact Iff.rfl
  | error fault => cases fault <;> exact Iff.rfl

theorem Answers.bind {x : Checked ε β} {f : β → Checked ε α} {mid : β → Prop} (h : Answers allowed x mid)
    (hf : ∀ value, mid value → Answers allowed (f value) post) : Answers allowed (x >>= f) post :=
  answers_bind.mpr (h.mono hf)

@[simp] theorem answers_ite [Decidable c] {y : Checked ε α} :
    Answers allowed (if c then x else y) post ↔
      (c → Answers allowed x post) ∧ (¬ c → Answers allowed y post) := by
  split_ifs with h <;> simp [h]

theorem Only.unrefused (h : Only (fun _ ↦ False) x) : Unrefused x := by
  rintro error rfl
  exact h

@[simp] theorem answers_reject [Decidable c] {post : Unit → Prop} :
    Answers allowed (reject c error) post ↔ (c → allowed error) ∧ (¬ c → post ()) :=
  answers_ite

@[simp] theorem answers_okOr :
    Answers allowed (okOr error option) post ↔
      (option = none → allowed error) ∧ ∀ value, option = some value → post value := by
  cases option <;> simp [okOr]

@[simp] theorem answers_expect :
    Answers allowed (expect option) post ↔ ∀ value, option = some value → post value := by
  cases option <;> simp [expect, Answers]

@[simp] theorem answers_index {array : List α} {position : ℕ} :
    Answers allowed (index array position) post ↔ ∀ value, array[position]? = some value → post value :=
  answers_expect

@[simp] theorem answers_setIndex {array : List α} {position : ℕ} {post : List α → Prop} :
    Answers allowed (setIndex array position value) post ↔
      (position < array.length → post (array.set position value)) := by
  rw [setIndex]
  split_ifs with h <;> simp [h, Answers]

@[simp] theorem only_addUsize (left right : ℕ) : Only allowed (addUsize left right) := by
  simp [addUsize, Answers]

@[simp] theorem only_subUsize (left right : ℕ) : Only allowed (subUsize left right) := by
  simp [subUsize, Answers]

/-! ### Loops -/

theorem answers_foldlM {body : β → α → Checked ε β} {invariant : β → Prop}
    (hbody : ∀ item ∈ items, ∀ state, invariant state → Answers allowed (body state item) invariant)
    (hstate : invariant state) : Answers allowed (items.foldlM body state) invariant := by
  induction items generalizing state with
  | nil => exact hstate
  | cons item rest ih =>
    rw [List.foldlM_cons]
    exact (hbody item List.mem_cons_self state hstate).bind fun next hnext ↦
      ih (fun other hother ↦ hbody other (List.mem_cons_of_mem _ hother)) hnext

theorem answers_forEach {body : β → ℕ → α → Checked ε β} {invariant : β → Prop}
    (hstate : invariant state)
    (hbody : ∀ state position item, items[position]? = some item → invariant state →
      Answers allowed (body state position item) invariant) :
    Answers allowed (forEach items state body) invariant :=
  answers_foldlM (fun entry hentry state ↦
    hbody state entry.2 entry.1 (List.mem_zipIdx_iff_getElem?.mp hentry)) hstate

@[simp] theorem only_forEach {body : β → ℕ → α → Checked ε β}
    (hbody : ∀ state position item, Only allowed (body state position item)) :
    Only allowed (forEach items state body) :=
  answers_forEach trivial fun state position item _ _ ↦ hbody state position item

@[simp] theorem only_forRange {first last : ℕ} {body : β → ℕ → Checked ε β}
    (hbody : ∀ state position, first ≤ position → position < last → Only allowed (body state position)) :
    Only allowed (forRange first last state body) := by
  refine answers_foldlM (fun position hposition state _ ↦ ?_) trivial
  rw [List.mem_range'_1] at hposition
  exact hbody state position hposition.1 (by omega)

end Pythos.Foundation
