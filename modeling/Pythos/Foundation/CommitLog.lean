import Mathlib.Data.List.Induction
import Mathlib.Data.List.TakeWhile

/-!
# Logs with commit marks

A log grows at its end by records that are not committed, and only its last record can be committed.
A recovery replays the records before the first one that is not committed. It replays every committed
record exactly when the marks are in order, and `ordered_foldl_iff` says what that asks of a run: each
commit finds the records before the last one committed.
-/

namespace Pythos.Foundation

/-- The used part of an array of records. -/
structure BoundedLog (α : Type) (capacity : ℕ) where
  records : List α
  length_le : records.length ≤ capacity
  deriving DecidableEq

namespace BoundedLog

variable {α : Type} {capacity : ℕ}

def empty : BoundedLog α capacity := ⟨[], Nat.zero_le _⟩

/-- The log with one more record, unless the array is used up. -/
def push (log : BoundedLog α capacity) (record : α) : Option (BoundedLog α capacity) :=
  if h : log.records.length < capacity then
    some ⟨log.records ++ [record], List.length_append.trans_le h⟩
  else none

/-- The log with its last record replaced. -/
def setLast (log : BoundedLog α capacity) (record : α) : BoundedLog α capacity where
  records := log.records.set (log.records.length - 1) record
  length_le := by simpa using log.length_le

theorem push_eq_some {log log' : BoundedLog α capacity} {record : α}
    (h : log.push record = some log') : log'.records = log.records ++ [record] := by
  unfold push at h
  split_ifs at h
  obtain rfl := Option.some.inj h
  rfl

theorem records_setLast {log : BoundedLog α capacity} {before : List α} {last : α}
    (h : log.records = before ++ [last]) (record : α) :
    (log.setLast record).records = before ++ [record] := by
  show log.records.set (log.records.length - 1) record = _
  rw [h]
  simp

end BoundedLog

section CommitLog

variable {α : Type} {committed : α → Bool} {log before : List α}

/-- No record that is not committed stands before a committed one. -/
def Ordered (committed : α → Bool) (log : List α) : Prop :=
  log.Pairwise fun earlier later ↦ committed later = true → committed earlier = true

theorem ordered_concat_of_open {record : α} (h : committed record = false) :
    Ordered committed (log ++ [record]) ↔ Ordered committed log := by
  simp [Ordered, List.pairwise_append, h]

theorem ordered_concat_of_all {record : α} (h : ∀ earlier ∈ before, committed earlier = true) :
    Ordered committed (before ++ [record]) :=
  List.pairwise_append.mpr ⟨List.pairwise_of_forall_mem_list fun earlier hearlier _ _ _ ↦
      h earlier hearlier, List.pairwise_singleton _ _, fun earlier hearlier _ _ _ ↦ h earlier hearlier⟩

theorem ordered_concat_of_committed {record : α} (h : committed record = true) :
    Ordered committed (before ++ [record]) ↔ ∀ earlier ∈ before, committed earlier = true := by
  refine ⟨fun hordered earlier hearlier ↦ ?_, ordered_concat_of_all⟩
  exact (List.pairwise_append.mp hordered).2.2 earlier hearlier record (by simp) h

/-- The marks are in order when no committed record is left behind the replayed ones. -/
theorem ordered_iff_dropWhile :
    Ordered committed log ↔ ∀ record ∈ log.dropWhile committed, committed record = false := by
  induction log with
  | nil => simp [Ordered]
  | cons head rest ih =>
    rw [Ordered, List.pairwise_cons]
    cases hhead : committed head with
    | true =>
      rw [List.dropWhile_cons_of_pos hhead, ← ih]
      exact and_iff_right fun _ _ _ ↦ rfl
    | false =>
      rw [List.dropWhile_cons_of_neg (by simp [hhead])]
      constructor
      · rintro ⟨hopen, -⟩ record hrecord
        rcases List.mem_cons.mp hrecord with rfl | hrest
        · exact hhead
        · exact Bool.eq_false_iff.mpr fun hmark ↦ Bool.false_ne_true (hopen record hrest hmark)
      · intro hopen
        have hrest (record : α) (hrecord : record ∈ rest) : committed record ≠ true :=
          Bool.eq_false_iff.mp (hopen record (List.mem_cons_of_mem _ hrecord))
        exact ⟨fun record hrecord hmark ↦ (hrest record hrecord hmark).elim,
          List.pairwise_of_forall_mem_list fun _ _ record hrecord hmark ↦
            (hrest record hrecord hmark).elim⟩

theorem getElem?_dropWhile (index : ℕ) :
    (log.dropWhile committed)[index]? = log[(log.takeWhile committed).length + index]? := by
  have hright : ∀ left right : List α, (left ++ right)[left.length + index]? = right[index]? := by
    simp [List.getElem?_append_right]
  rw [← hright (log.takeWhile committed), List.takeWhile_append_dropWhile]

/-- The replayed records are the committed ones exactly when the marks are in order. -/
theorem ordered_iff_replayed :
    Ordered committed log ↔ ∀ (index : ℕ) (record : α), log[index]? = some record →
      committed record = true → index < (log.takeWhile committed).length := by
  rw [ordered_iff_dropWhile]
  constructor
  · intro h index record hrecord hmark
    by_contra hlong
    rw [← Nat.add_sub_cancel' (Nat.le_of_not_lt hlong), ← getElem?_dropWhile] at hrecord
    rw [h record (List.mem_of_getElem? hrecord)] at hmark
    cases hmark
  · intro h record hrecord
    obtain ⟨index, hindex⟩ := List.mem_iff_getElem?.mp hrecord
    rw [getElem?_dropWhile] at hindex
    refine Bool.eq_false_iff.mpr fun hmark ↦ ?_
    exact absurd (h _ record hindex hmark) (Nat.not_lt.mpr (Nat.le_add_right _ _))

/-- The replayed records are the first records of the log. -/
theorem getElem?_takeWhile {index : ℕ} (h : index < (log.takeWhile committed).length) :
    (log.takeWhile committed)[index]? = log[index]? := by
  obtain ⟨rest, hrest⟩ := List.takeWhile_prefix committed (l := log)
  rw [← List.getElem?_append_left h, hrest]

theorem committed_of_replayed {index : ℕ} {record : α} (h : index < (log.takeWhile committed).length)
    (hrecord : log[index]? = some record) : committed record = true := by
  rw [← getElem?_takeWhile h] at hrecord
  exact List.mem_takeWhile_imp (List.mem_of_getElem? hrecord)

/-- A record of a log is the last one, or a record before it. -/
theorem getElem?_concat_eq_some {record other : α} {index : ℕ} :
    (log ++ [record])[index]? = some other ↔
      log[index]? = some other ∨ index = log.length ∧ record = other := by
  rw [List.getElem?_append]
  split_ifs with h
  · exact (or_iff_left fun hlast ↦ h.ne hlast.1).symm
  · rw [List.getElem?_eq_none (Nat.le_of_not_lt h), List.getElem?_singleton]
    split_ifs with hzero
    · simpa using fun _ ↦ by omega
    · simpa using fun hlast _ ↦ by omega

/-- What a call does to the log: nothing, a new record, or the commit of the last record. A commit of
an empty log does nothing. -/
inductive Moves (committed : α → Bool) (commits : Prop) : List α → List α → Prop
  | keep {log : List α} (h : commits → log = []) : Moves committed commits log log
  | append {log : List α} {record : α} (h : ¬ commits) (hopen : committed record = false) :
      Moves committed commits log (log ++ [record])
  | commit {before : List α} {record record' : α} (h : commits) (hmark : committed record' = true) :
      Moves committed commits (before ++ [record]) (before ++ [record'])

/-- A call keeps the marks in order unless it commits behind a record that is not committed. -/
theorem Moves.ordered_iff {commits : Prop} {log' : List α} (h : Moves committed commits log log') :
    Ordered committed log' ↔
      Ordered committed log ∧ (commits → ∀ record ∈ log.dropLast, committed record = true) := by
  cases h with
  | keep hkeep =>
    refine (and_iff_left fun hcommits ↦ ?_).symm
    rw [hkeep hcommits]
    simp
  | append hno hopen =>
    rw [ordered_concat_of_open hopen]
    exact (and_iff_left fun hcommits ↦ (hno hcommits).elim).symm
  | commit hcommits hmark =>
    rw [ordered_concat_of_committed hmark, List.dropLast_concat]
    exact ⟨fun hall ↦ ⟨ordered_concat_of_all hall, fun _ ↦ hall⟩, fun h ↦ h.2 hcommits⟩

/-- A call of a run is its last one, or a call of the run without the last one. -/
theorem concat_eq_append_cons {κ : Type} {calls before after : List κ} {last call : κ}
    (h : calls ++ [last] = before ++ call :: after) :
    (calls = before ∧ last = call) ∨ ∃ after', calls = before ++ call :: after' := by
  rcases List.eq_nil_or_concat after with rfl | ⟨after, call', rfl⟩
  · exact Or.inl (List.append_singleton_inj.mp h)
  · rw [List.concat_eq_append, ← List.cons_append, ← List.append_assoc] at h
    exact Or.inr ⟨after, (List.append_singleton_inj.mp h).1⟩

/-- Every commit of a run finds the records before the last one committed. -/
def CommitsInOrder {σ κ : Type} (committed : α → Bool) (log : σ → List α) (step : σ → κ → σ)
    (commits : κ → Prop) (start : σ) (calls : List κ) : Prop :=
  ∀ before call after, calls = before ++ call :: after → commits call →
    ∀ record ∈ (log (before.foldl step start)).dropLast, committed record = true

/-- The marks are in order after a run exactly when it commits in order. -/
theorem ordered_foldl_iff {σ κ : Type} {log : σ → List α} {step : σ → κ → σ} {commits : κ → Prop}
    (hstep : ∀ state call, Moves committed (commits call) (log state) (log (step state call)))
    {start : σ} (hstart : log start = []) (calls : List κ) :
    Ordered committed (log (calls.foldl step start)) ↔
      CommitsInOrder committed log step commits start calls := by
  -- the last call of the run comes after all the others
  induction calls using List.reverseRecOn with
  | nil =>
    rw [List.foldl_nil, hstart]
    exact iff_of_true List.Pairwise.nil fun before call after h ↦ by simp at h
  | append_singleton calls last ih =>
    rw [List.foldl_append, List.foldl_cons, List.foldl_nil, (hstep _ last).ordered_iff, ih]
    constructor
    · rintro ⟨hearlier, hlast⟩ before call after h hcommits
      rcases concat_eq_append_cons h with ⟨rfl, rfl⟩ | ⟨after', hsplit⟩
      · exact hlast hcommits
      · exact hearlier before call after' hsplit hcommits
    · intro h
      refine ⟨fun before call after hsplit ↦ h before call (after ++ [last]) ?_, h calls last [] rfl⟩
      rw [hsplit, List.append_assoc, List.cons_append]

end CommitLog

end Pythos.Foundation
