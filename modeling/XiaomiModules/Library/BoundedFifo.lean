import Mathlib.Algebra.GroupWithZero.Nat
import XiaomiModules.Library.Runs

/-!
# A bounded first-in first-out store

The store holds at most `capacity` elements. Putting in a block stores the longest prefix that
fits and says how long it was; taking out removes a prefix and hands it over. A writer counts a
block as accepted only when all of it was stored, so the store and its writers may disagree on
what went through. The history of a run keeps what was taken out and what the writers count as
accepted, and the two agree exactly when no block was cut.

## Main definitions

* `BoundedFifo α capacity`, `put`, `take`: the store
* `History`, `History.step`: the store with what was taken out and what was accepted
* `Cuts q block`: some but not all of the block fits

## Main results

* `length_step`: a block that is cut lengthens what went through and not what was accepted
* `along_uncut_of_size_le`: where there is room for all blocks, none is cut
* `stream_eq_iff_along`: what went through is what was accepted exactly when no block was cut
-/

/-- A store of at most `capacity` elements, the oldest first. -/
structure BoundedFifo (α : Type*) (capacity : ℕ) where
  content : List α
  length_le : content.length ≤ capacity

namespace BoundedFifo

variable {α : Type*} {capacity : ℕ}

/-- The number of elements that still fit. -/
def free (q : BoundedFifo α capacity) : ℕ := capacity - q.content.length

/-- The empty store. -/
def empty : BoundedFifo α capacity := ⟨[], Nat.zero_le _⟩

/-- Put in a block: its longest prefix that fits is stored, and its length is returned. -/
def put (q : BoundedFifo α capacity) (block : List α) : ℕ × BoundedFifo α capacity :=
  (min block.length q.free,
    ⟨q.content ++ block.take q.free, by
      have := q.length_le
      simp only [List.length_append, List.length_take, free]
      omega⟩)

/-- Take out at most `n` elements: they are handed over in order and removed. -/
def take (q : BoundedFifo α capacity) (n : ℕ) : List α × BoundedFifo α capacity :=
  (q.content.take n, ⟨q.content.drop n, by
    have := q.length_le
    rw [List.length_drop]
    omega⟩)

@[simp] theorem put_fst (q : BoundedFifo α capacity) (block : List α) :
    (q.put block).1 = min block.length q.free := rfl

@[simp] theorem put_content (q : BoundedFifo α capacity) (block : List α) :
    (q.put block).2.content = q.content ++ block.take q.free := rfl

@[simp] theorem take_fst (q : BoundedFifo α capacity) (n : ℕ) :
    (q.take n).1 = q.content.take n := rfl

@[simp] theorem take_content (q : BoundedFifo α capacity) (n : ℕ) :
    (q.take n).2.content = q.content.drop n := rfl

/-- Taking out conserves the elements and their order. -/
theorem take_append (q : BoundedFifo α capacity) (n : ℕ) :
    (q.take n).1 ++ (q.take n).2.content = q.content := List.take_append_drop n q.content

/-- Some but not all of the block fits. -/
def Cuts (q : BoundedFifo α capacity) (block : List α) : Prop :=
  0 < q.free ∧ q.free < block.length

instance (q : BoundedFifo α capacity) (block : List α) : Decidable (q.Cuts block) :=
  inferInstanceAs (Decidable (_ ∧ _))

/-- The whole block was stored exactly when it fits. -/
theorem put_fst_eq_length_iff (q : BoundedFifo α capacity) (block : List α) :
    (q.put block).1 = block.length ↔ block.length ≤ q.free := by
  rw [put_fst]
  omega

/-- What is done to the store: a writer puts in a block, or a reader takes out. -/
inductive Action (α : Type*)
  | put (block : List α)
  | take (n : ℕ)

/-- How many elements the action asks room for. -/
def Action.size : Action α → ℕ
  | .put block => block.length
  | .take _ => 0

/-- The store, all that was taken out of it, and the blocks the writers count as accepted. -/
structure History (α : Type*) (capacity : ℕ) where
  store : BoundedFifo α capacity
  taken : List α
  accepted : List α

namespace History

/-- What went through the store or is still in it. -/
def stream (h : History α capacity) : List α := h.taken ++ h.store.content

/-- One action. A block counts as accepted when all of it was stored. -/
def step (h : History α capacity) : Action α → History α capacity
  | .put block =>
    let (stored, store) := h.store.put block
    { h with store, accepted := if stored = block.length then h.accepted ++ block else h.accepted }
  | .take n =>
    let (out, store) := h.store.take n
    { h with store, taken := h.taken ++ out }

/-- The action stores all of its block or nothing of it. -/
def Uncut (h : History α capacity) : Action α → Prop
  | .put block => ¬ h.store.Cuts block
  | .take _ => True

instance (h : History α capacity) (a : Action α) : Decidable (h.Uncut a) :=
  match a with
  | .put _ => inferInstanceAs (Decidable (¬ _))
  | .take _ => isTrue trivial

@[simp] theorem stream_step_take (h : History α capacity) (n : ℕ) :
    (h.step (.take n)).stream = h.stream := by
  simp only [stream, step, List.append_assoc, take_append]

@[simp] theorem stream_step_put (h : History α capacity) (block : List α) :
    (h.step (.put block)).stream = h.stream ++ block.take h.store.free := by
  simp [stream, step]

@[simp] theorem accepted_step_take (h : History α capacity) (n : ℕ) :
    (h.step (.take n)).accepted = h.accepted := rfl

theorem accepted_step_put_of_fits {h : History α capacity} {block : List α}
    (hfit : block.length ≤ h.store.free) :
    (h.step (.put block)).accepted = h.accepted ++ block :=
  if_pos ((put_fst_eq_length_iff _ _).mpr hfit)

theorem accepted_step_put_of_not_fits {h : History α capacity} {block : List α}
    (hfit : ¬ block.length ≤ h.store.free) : (h.step (.put block)).accepted = h.accepted :=
  if_neg (mt (put_fst_eq_length_iff _ _).mp hfit)

/-- A block that is cut lengthens the stream and not the accepted blocks; any other action
lengthens both alike. -/
theorem length_step (h : History α capacity) (a : Action α) :
    (h.step a).stream.length + h.accepted.length =
        h.stream.length + (h.step a).accepted.length ∧ h.Uncut a ∨
      h.stream.length + (h.step a).accepted.length <
        (h.step a).stream.length + h.accepted.length ∧ ¬ h.Uncut a := by
  cases a with
  | take n => left; simp [Uncut]
  | put block =>
    simp only [stream_step_put, Uncut, Cuts, List.length_append, List.length_take]
    by_cases hfit : block.length ≤ h.store.free
    · rw [accepted_step_put_of_fits hfit, List.length_append]
      omega
    · rw [accepted_step_put_of_not_fits hfit]
      omega

/-- An action that cuts no block keeps the stream equal to the accepted blocks. -/
theorem stream_step_of_uncut {h : History α capacity} {a : Action α} {before : List α}
    (heq : h.stream = before ++ h.accepted) (ha : h.Uncut a) :
    (h.step a).stream = before ++ (h.step a).accepted := by
  cases a with
  | take n => simpa using heq
  | put block =>
    rw [stream_step_put, heq]
    by_cases hfit : block.length ≤ h.store.free
    · rw [accepted_step_put_of_fits hfit, List.take_of_length_le hfit, List.append_assoc]
    · -- a block that neither fits nor is cut found the store full
      have hfull : h.store.free = 0 := by
        simp only [Uncut, Cuts] at ha
        omega
      rw [accepted_step_put_of_not_fits hfit, hfull, List.take_zero, List.append_nil]

/-- An action leaves all of the room but what it asks for. -/
theorem free_le_free_step (h : History α capacity) (a : Action α) :
    h.store.free ≤ (h.step a).store.free + a.size := by
  cases a with
  | put block =>
    simp only [step, Action.size, free, put_content, List.length_append, List.length_take]
    omega
  | take n =>
    simp only [step, Action.size, free, take_content, List.length_drop]
    omega

/-- Where the store has room for all blocks of a run, none is cut. -/
theorem along_uncut_of_size_le {h : History α capacity} {as : List (Action α)}
    (hroom : (as.map Action.size).sum ≤ h.store.free) : Runs.Along step Uncut h as := by
  induction as generalizing h with
  | nil => trivial
  | cons a as ih =>
    rw [List.map_cons, List.sum_cons] at hroom
    have hleft := free_le_free_step h a
    refine ⟨?_, ih (by omega)⟩
    cases a with
    | take n => trivial
    | put block =>
      simp only [Uncut, Cuts, Action.size] at hroom ⊢
      omega

/-- The stream never falls behind the accepted blocks. -/
theorem length_le_length_after (h : History α capacity) (as : List (Action α)) :
    h.stream.length + (Runs.after step h as).accepted.length ≤
      (Runs.after step h as).stream.length + h.accepted.length := by
  induction as generalizing h with
  | nil => simp
  | cons a as ih =>
    have hrest := ih (h.step a)
    rw [Runs.after_cons]
    rcases length_step h a with ⟨hl, -⟩ | ⟨hl, -⟩
    · omega
    · omega

/-- **Conservation**: from a stream that equals the accepted blocks, after a run the stream
equals the accepted blocks exactly when no action of the run cut a block. -/
theorem stream_eq_iff_along {h : History α capacity} {before : List α}
    (heq : h.stream = before ++ h.accepted) (as : List (Action α)) :
    (Runs.after step h as).stream = before ++ (Runs.after step h as).accepted ↔
      Runs.Along step Uncut h as := by
  constructor
  · intro hend
    -- once a block was cut the stream stays longer than the accepted blocks
    induction as generalizing h with
    | nil => trivial
    | cons a as ih =>
      have hle := length_le_length_after (h.step a) as
      have hlen := congrArg List.length hend
      have hlen' := congrArg List.length heq
      simp only [Runs.after_cons, List.length_append] at hlen hlen' hend
      rcases length_step h a with ⟨-, ha⟩ | ⟨hl, -⟩
      · exact ⟨ha, ih (stream_step_of_uncut heq ha) hend⟩
      · omega
  · exact fun hal => hal.invariant (I := fun h => h.stream = before ++ h.accepted)
      (fun _ _ hs ha => stream_step_of_uncut hs ha) heq

end History

end BoundedFifo
