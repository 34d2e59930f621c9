import Mathlib.Algebra.Group.Nat.Defs
import Mathlib.Data.List.Basic
import Mathlib.Data.List.Range

/-!
# Computations that may return an error, panic or diverge

A function of the source returns `Ok`, returns `Err`, or fails to return: it panics on an `expect`, an
array index, a shift or an overflowing operator, or it loops forever. `Checked ε α` keeps the three
apart. `Safe x post` says that `x` does not panic and does not diverge, and that a value it returns
satisfies `post`. The rules below compose it through `bind` and through the loops of the source, so
one specification of a function gives both its totality and the facts its acceptance establishes.

The fixed-size arrays of the source are lists: an index outside the list panics (`index`,
`setIndex`). The operators of `usize` panic when they leave the machine range (`addUsize`,
`subUsize`), as in a build with overflow checks.
-/

namespace Pythos.Foundation

/-- Why a computation stopped without a value: it returned an error, it panicked, or it ran out of
the fuel given to one of its loops. -/
inductive Fault (ε : Type)
  | returned (error : ε)
  | panicked
  | diverged
  deriving DecidableEq, Repr

/-- A computation of the source with errors in `ε`. -/
abbrev Checked (ε : Type) : Type → Type := Except (Fault ε)

section Primitives

variable {ε α : Type}

/-- `return Err(error)`. -/
def fail (error : ε) : Checked ε α :=
  .error (.returned error)

/-- `if condition { return Err(error); }`. -/
def reject (condition : Prop) [Decidable condition] (error : ε) : Checked ε Unit :=
  if condition then fail error else .ok ()

/-- `option.expect(..)`. -/
def expect : Option α → Checked ε α
  | some value => .ok value
  | none => .error .panicked

/-- `option.ok_or(error)?`. -/
def okOr (error : ε) : Option α → Checked ε α
  | some value => .ok value
  | none => fail error

/-- `array[index]`. -/
def index (array : List α) (position : ℕ) : Checked ε α :=
  expect array[position]?

/-- `array[index] = value`. -/
def setIndex (array : List α) (position : ℕ) (value : α) : Checked ε (List α) :=
  if position < array.length then .ok (array.set position value) else .error .panicked

/-- The number of values of `usize` on the 64-bit target. -/
def usizeSize : ℕ := 2 ^ 64

/-- `left + right` on `usize`. -/
def addUsize (left right : ℕ) : Checked ε ℕ :=
  if left + right < usizeSize then .ok (left + right) else .error .panicked

/-- `left - right` on `usize`. -/
def subUsize (left right : ℕ) : Checked ε ℕ :=
  if right ≤ left then .ok (left - right) else .error .panicked

end Primitives

/-! ### The total-correctness triple -/

/-- The computation neither panics nor diverges, and a value it returns satisfies `post`. -/
def Safe {ε α : Type} (x : Checked ε α) (post : α → Prop) : Prop :=
  match x with
  | .ok value => post value
  | .error (.returned _) => True
  | .error _ => False

section Rules

variable {ε α β : Type}

variable {value : α} {post : α → Prop} {error : ε} {x : Checked ε α} {c : Prop}

@[simp] theorem safe_pure : Safe (pure value : Checked ε α) post ↔ post value :=
  Iff.rfl

@[simp] theorem safe_fail : Safe (fail error : Checked ε α) post :=
  trivial

/-- A returned value satisfies the postcondition. -/
theorem Safe.of_ok (h : Safe x post) (hx : x = .ok value) : post value := by
  rw [hx] at h
  exact h

/-- A safe computation returns a value or an error. -/
theorem Safe.total (h : Safe x post) :
    (∃ value, x = .ok value) ∨ ∃ error, x = .error (.returned error) := by
  cases x with
  | ok value => exact Or.inl ⟨value, rfl⟩
  | error fault =>
    cases fault with
    | returned error => exact Or.inr ⟨error, rfl⟩
    | panicked | diverged => exact h.elim

theorem Safe.mono {post' : α → Prop} (h : Safe x post) (hpost : ∀ value, post value → post' value) :
    Safe x post' := by
  cases x with
  | ok value => exact hpost value h
  | error fault => cases fault <;> exact h

theorem Safe.and_of_ok {post' : α → Prop} (h : Safe x post) (hok : ∀ value, x = .ok value → post' value) :
    Safe x fun value ↦ post value ∧ post' value := by
  cases x with
  | ok value => exact ⟨h, hok value rfl⟩
  | error fault => cases fault <;> exact h

theorem safe_bind_iff {f : α → Checked ε β} {post : β → Prop} :
    Safe (x >>= f) post ↔ Safe x fun value ↦ Safe (f value) post := by
  cases x with
  | ok value => exact Iff.rfl
  | error fault => cases fault <;> exact Iff.rfl

theorem safe_bind {f : α → Checked ε β} {mid : α → Prop} {post : β → Prop} (hx : Safe x mid)
    (hf : ∀ value, mid value → Safe (f value) post) : Safe (x >>= f) post :=
  safe_bind_iff.mpr (hx.mono hf)

theorem safe_ite [Decidable c] {y : Checked ε α} :
    Safe (if c then x else y) post ↔ (c → Safe x post) ∧ (¬ c → Safe y post) := by
  split_ifs with h <;> simp [h]

/-- Past a rejected condition the condition is false. -/
theorem safe_reject [Decidable c] {post : Unit → Prop} : Safe (reject c error) post ↔ (¬ c → post ()) := by
  unfold reject
  split_ifs with hc <;> simp [hc, Safe, fail]

theorem safe_reject_not [Decidable c] : Safe (reject c error) fun _ ↦ ¬ c :=
  safe_reject.mpr fun h ↦ h

theorem safe_reject_bind [Decidable c] {f : Unit → Checked ε β} {post : β → Prop}
    (hf : ¬ c → Safe (f ()) post) : Safe (reject c error >>= f) post :=
  safe_bind safe_reject_not fun _ ↦ hf

theorem safe_expect {option : Option α} :
    Safe (expect option : Checked ε α) post ↔ ∃ value, option = some value ∧ post value := by
  cases option <;> simp [expect, Safe]

theorem safe_expect_bind {option : Option α} {f : α → Checked ε β} {post : β → Prop}
    (h : option = some value) (hf : Safe (f value) post) : Safe (expect option >>= f) post := by
  rw [h]
  exact hf

theorem safe_okOr {option : Option α} :
    Safe (okOr error option : Checked ε α) post ↔ ∀ value, option = some value → post value := by
  cases option <;> simp [okOr, Safe, fail]

theorem safe_okOr_bind {option : Option α} {f : α → Checked ε β} {post : β → Prop}
    (hf : ∀ value, option = some value → Safe (f value) post) : Safe (okOr error option >>= f) post :=
  safe_bind (safe_okOr.mpr fun _ h ↦ h) hf

theorem safe_index {array : List α} {position : ℕ} :
    Safe (index array position : Checked ε α) post ↔ ∃ value, array[position]? = some value ∧ post value :=
  safe_expect

theorem safe_index_bind {array : List α} {position : ℕ} {f : α → Checked ε β} {post : β → Prop}
    (h : array[position]? = some value) (hf : Safe (f value) post) :
    Safe (index array position >>= f) post :=
  safe_expect_bind h hf

theorem safe_setIndex {array : List α} {position : ℕ} {post : List α → Prop} :
    Safe (setIndex array position value : Checked ε (List α)) post ↔
      position < array.length ∧ post (array.set position value) := by
  unfold setIndex
  split_ifs with h <;> simp [h, Safe]

theorem safe_addUsize {left right : ℕ} {post : ℕ → Prop} :
    Safe (addUsize left right : Checked ε ℕ) post ↔ left + right < usizeSize ∧ post (left + right) := by
  unfold addUsize
  split_ifs with h <;> simp [h, Safe]

theorem safe_subUsize {left right : ℕ} {post : ℕ → Prop} :
    Safe (subUsize left right : Checked ε ℕ) post ↔ right ≤ left ∧ post (left - right) := by
  unfold subUsize
  split_ifs with h <;> simp [h, Safe]

end Rules

section Inversion

variable {ε α β : Type}

theorem ok_bind (value : α) (f : α → Except ε β) : (Except.ok value >>= f) = f value := rfl

theorem bind_eq_ok_iff {x : Except ε α} {f : α → Except ε β} {result : β} :
    (x >>= f) = .ok result ↔ ∃ value, x = .ok value ∧ f value = .ok result := by
  cases x with
  | error error | ok value => simp [bind, Except.bind]

theorem bind_eq_error_iff {x : Except ε α} {f : α → Except ε β} {error : ε} :
    (x >>= f) = .error error ↔ x = .error error ∨ ∃ value, x = .ok value ∧ f value = .error error := by
  cases x with
  | error error | ok value => simp [bind, Except.bind]

end Inversion

/-! ### Loops -/

section Loops

variable {ε α β : Type}

/-- `for (position, item) in items.enumerate()` with the loop state threaded through the body. -/
def forEach (items : List α) (state : β) (body : β → ℕ → α → Checked ε β) : Checked ε β :=
  items.zipIdx.foldlM (fun current entry ↦ body current entry.2 entry.1) state

/-- `for position in first..last` with the loop state threaded through the body. -/
def forRange (first last : ℕ) (state : β) (body : β → ℕ → Checked ε β) : Checked ε β :=
  (List.range' first (last - first)).foldlM body state

theorem safe_foldlM_zipIdx (items : List α) (body : β → ℕ → α → Checked ε β)
    (invariant : ℕ → β → Prop) :
    ∀ (offset : ℕ) (state : β), invariant offset state →
      (∀ position item current, items[position]? = some item →
        invariant (offset + position) current →
          Safe (body current (offset + position) item) (invariant (offset + position + 1))) →
        Safe ((items.zipIdx offset).foldlM (fun current entry ↦ body current entry.2 entry.1) state)
          (invariant (offset + items.length)) := by
  induction items with
  | nil => intro offset state hstate _; exact hstate
  | cons item rest ih =>
    intro offset state hstate hstep
    rw [List.zipIdx_cons, List.foldlM_cons]
    have hfirst := hstep 0 item state rfl (by simpa using hstate)
    refine safe_bind hfirst fun current hcurrent ↦ ?_
    have hrest := ih (offset + 1) current (by simpa using hcurrent) fun position item' current' hitem
        hinvariant ↦ by
      have hbody := hstep (position + 1) item' current' (by simpa using hitem)
      rw [show offset + (position + 1) = offset + 1 + position by omega] at hbody
      exact hbody hinvariant
    rw [List.length_cons, show offset + (rest.length + 1) = offset + 1 + rest.length by omega]
    exact hrest

/-- The rule for an enumerated loop: an invariant indexed by the number of items already seen. -/
theorem safe_forEach {items : List α} {state : β} {body : β → ℕ → α → Checked ε β}
    (invariant : ℕ → β → Prop) (hstart : invariant 0 state)
    (hstep : ∀ position item current, items[position]? = some item → invariant position current →
      Safe (body current position item) (invariant (position + 1))) :
    Safe (forEach items state body) (invariant items.length) := by
  have h := safe_foldlM_zipIdx items body invariant 0 state hstart fun position item current hitem
      hcurrent ↦ by
    rw [Nat.zero_add] at hcurrent ⊢
    exact hstep position item current hitem hcurrent
  rwa [Nat.zero_add] at h

theorem safe_foldlM_range' (body : β → ℕ → Checked ε β) (invariant : ℕ → β → Prop) (count : ℕ) :
    ∀ (first : ℕ) (state : β), invariant first state →
      (∀ position current, first ≤ position → position < first + count →
        invariant position current → Safe (body current position) (invariant (position + 1))) →
        Safe ((List.range' first count).foldlM body state) (invariant (first + count)) := by
  induction count with
  | zero => intro first state hstate _; exact hstate
  | succ count ih =>
    intro first state hstate hstep
    rw [List.range'_succ, List.foldlM_cons]
    refine safe_bind (hstep first state le_rfl (by omega) hstate) fun current hcurrent ↦ ?_
    have hrest := ih (first + 1) current hcurrent fun position current' hlow hhigh ↦
      hstep position current' (by omega) (by omega)
    rwa [show first + 1 + count = first + (count + 1) by omega] at hrest

/-- The rule for a counted loop: an invariant indexed by the loop counter. -/
theorem safe_forRange {first last : ℕ} {state : β} {body : β → ℕ → Checked ε β}
    (invariant : ℕ → β → Prop) (hrange : first ≤ last) (hstart : invariant first state)
    (hstep : ∀ position current, first ≤ position → position < last → invariant position current →
      Safe (body current position) (invariant (position + 1))) :
    Safe (forRange first last state body) (invariant last) := by
  have h := safe_foldlM_range' body invariant (last - first) first state hstart
    fun position current hlow hhigh ↦ hstep position current hlow (by omega)
  rwa [show first + (last - first) = last by omega] at h

/-- A loop that only checks its items leaves the condition checked for every item. -/
theorem safe_forEach_check {items : List α} {body : Unit → ℕ → α → Checked ε Unit}
    {post : ℕ → α → Prop}
    (hstep : ∀ position item, items[position]? = some item →
      Safe (body () position item) fun _ ↦ post position item) :
    Safe (forEach items () body) fun _ ↦
      ∀ position item, items[position]? = some item → post position item := by
  refine (safe_forEach (fun seen _ ↦ ∀ position item, position < seen →
    items[position]? = some item → post position item) ?_ ?_).mono fun _ h position item hitem ↦ ?_
  · exact nofun
  · intro position item _ hitem hseen
    refine (hstep position item hitem).mono fun _ hpost other item' hlt hitem' ↦ ?_
    rcases Nat.lt_succ_iff_lt_or_eq.mp hlt with hbefore | rfl
    · exact hseen other item' hbefore hitem'
    · rw [hitem, Option.some_inj] at hitem'
      exact hitem' ▸ hpost
  · exact h position item (List.getElem?_eq_some_iff.mp hitem).1 hitem

/-- A counted loop that only checks leaves the condition checked for every counter. -/
theorem safe_forRange_check {first last : ℕ} {body : Unit → ℕ → Checked ε Unit} {post : ℕ → Prop}
    (hrange : first ≤ last)
    (hstep : ∀ position, first ≤ position → position < last →
      Safe (body () position) fun _ ↦ post position) :
    Safe (forRange first last () body) fun _ ↦
      ∀ position, first ≤ position → position < last → post position := by
  refine safe_forRange (fun next _ ↦ ∀ position, first ≤ position → position < next →
    post position) hrange ?_ ?_
  · intro position hlow hhigh
    omega
  · intro position _ hlow hhigh hseen
    refine (hstep position hlow hhigh).mono fun _ hpost other hother hlt ↦ ?_
    rcases Nat.lt_succ_iff_lt_or_eq.mp hlt with hbefore | rfl
    · exact hseen other hother hbefore
    · exact hpost

end Loops

/-! ### Computations that return no error -/

section Unrefused

variable {ε α : Type}

/-- The computation returns no error value: only a panic or divergence can keep it from a result. -/
def Unrefused (x : Checked ε α) : Prop :=
  ∀ error, x ≠ .error (.returned error)

variable {x : Checked ε α}

/-- A safe computation that returns no error returns a value. -/
theorem Safe.exists_ok {post : α → Prop} (h : Safe x post) (hx : Unrefused x) :
    ∃ value, x = .ok value ∧ post value := by
  rcases h.total with ⟨value, hvalue⟩ | ⟨error, herror⟩
  · exact ⟨value, hvalue, h.of_ok hvalue⟩
  · exact absurd herror (hx error)

end Unrefused

end Pythos.Foundation
