import XiaomiModules.Library.Ledger
import XiaomiModules.Library.Program

/-!
# Nested ledgers

A ledger is nested if what is given back is always what was taken last. The resources held are
then a stack, and at every point of the ledger a resource is held as long as those that were taken
after it.

A program whose calls take and give back resources is shown to do so in this order by a contract
whose abstract state is the stack: a call that takes pushes, and a call that gives back may be made
only where the resource is on top.

## Main definitions

* `stack held e`: what is held after an entry, the last taken first
* `Fits held e`: an entry gives back what was taken last
* `Nested l`: every entry of the ledger fits, and nothing is held at its end
* `stackContract`: the stack as a contract

## Main results

* `meets_take_guard`, `meets_give_bind`: the contract across a call
* `along_stack_exec`: the contract along an execution
-/

namespace Ledger

variable {R : Type}

/-- What is held after an entry, the last taken first. -/
def stack (held : List R) : Entry R → List R
  | .take r => r :: held
  | .give _ => held.tail

/-- The entry takes something, or gives back what was taken last. -/
def Fits (held : List R) : Entry R → Prop
  | .take _ => True
  | .give r => held.head? = some r

/-- Every entry fits, and nothing is held at the end. -/
def Nested (l : List (Entry R)) : Prop :=
  Runs.Along stack Fits [] l ∧ Runs.after stack [] l = []

/-! ## Programs -/

section Programs

open Program (Contract Meets ask)

variable {Q A T : Type} {entries : Q × A → List (Entry R)} {may : List R → Q → Prop}
  {post : T → List R → Prop} {q : Q} {r : R} {d : List R}

/-- What is held after a call with its answer, the last taken first. -/
def stackAfter (entries : Q × A → List (Entry R)) (d : List R) (x : Q × A) : List R :=
  Runs.after stack d (entries x)

/-- A call fits however it is answered, and is allowed with what is held. -/
def MayCall (entries : Q × A → List (Entry R)) (may : List R → Q → Prop) (d : List R) (q : Q) :
    Prop :=
  (∀ a, Runs.Along stack Fits d (entries (q, a))) ∧ may d q

/-- The contract of the programs that give back what was taken last. -/
def stackContract (entries : Q × A → List (Entry R)) (may : List R → Q → Prop) :
    Contract Q A (List R) :=
  .ofStep (MayCall entries may) (stackAfter entries)

theorem meets_stack_bind (q : Q) (f : A → Program Q A T) :
    Meets (stackContract entries may) post (ask q >>= f) d ↔
      MayCall entries may d q ∧
        ∀ a, Meets (stackContract entries may) post (f a) (stackAfter entries d (q, a)) := by
  rw [Program.meets_ask_bind]
  simp only [stackContract, Contract.ofStep, forall_eq]

/-- **Taking**: a call that takes where it is answered with 0, before a way out. -/
theorem meets_take_guard [Zero A] [DecidableEq A]
    (hq : ∀ ret : A, entries (q, ret) = if ret = 0 then [.take r] else []) (hmay : may d q)
    (err : A → Program Q A T) (rest : Program Q A T) :
    Meets (stackContract entries may) post
        (ask q >>= fun ret => if ret ≠ 0 then err ret else rest) d ↔
      (∀ ret ≠ 0, Meets (stackContract entries may) post (err ret) d) ∧
        Meets (stackContract entries may) post rest (r :: d) := by
  have hcall : MayCall entries may d q := by
    refine ⟨fun ret => ?_, hmay⟩
    rw [hq]
    split_ifs
    · exact ⟨trivial, trivial⟩
    · trivial
  have hzero : stackAfter entries d (q, 0) = r :: d := by
    rw [stackAfter, hq, if_pos rfl]
    rfl
  have hne : ∀ ret ≠ 0, stackAfter entries d (q, ret) = d := by
    intro ret hret
    rw [stackAfter, hq, if_neg hret]
    rfl
  rw [meets_stack_bind, and_iff_right hcall]
  constructor
  · intro h
    refine ⟨fun ret hret => ?_, ?_⟩
    · have herr := h ret
      rwa [if_pos hret, hne ret hret] at herr
    · have hrest := h 0
      rwa [if_neg (not_not.mpr rfl), hzero] at hrest
  · rintro ⟨herr, hrest⟩ ret
    by_cases hret : ret = 0
    · rw [if_neg (not_not.mpr hret), hret, hzero]
      exact hrest
    · rw [if_pos hret, hne ret hret]
      exact herr ret hret

/-- **Giving back** what was taken last. -/
theorem meets_give_bind [Inhabited A] (hq : ∀ a : A, entries (q, a) = [.give r])
    (hmay : may (r :: d) q) (rest : Program Q A T) :
    Meets (stackContract entries may) post (ask q >>= fun _ => rest) (r :: d) ↔
      Meets (stackContract entries may) post rest d := by
  have hcall : MayCall entries may (r :: d) q := by
    refine ⟨fun a => ?_, hmay⟩
    rw [hq]
    exact ⟨rfl, trivial⟩
  have hafter : ∀ a, stackAfter entries (r :: d) (q, a) = d := by
    intro a
    rw [stackAfter, hq]
    rfl
  simp only [meets_stack_bind, hcall, hafter, true_and, forall_const]

/-- A call that takes nothing and gives nothing back. -/
theorem meets_skip_bind [Inhabited A] (hq : ∀ a : A, entries (q, a) = []) (hmay : may d q)
    (rest : Program Q A T) :
    Meets (stackContract entries may) post (ask q >>= fun _ => rest) d ↔
      Meets (stackContract entries may) post rest d := by
  have hcall : MayCall entries may d q := by
    refine ⟨fun a => ?_, hmay⟩
    rw [hq]
    trivial
  have hafter : ∀ a, stackAfter entries d (q, a) = d := by
    intro a
    rw [stackAfter, hq]
    rfl
  simp only [meets_stack_bind, hcall, hafter, true_and, forall_const]

/-- **Executions**: every call is allowed where it is made, every entry fits, and the result
satisfies the postcondition with what is held. -/
theorem along_stack_exec (answer : List (Q × A) → Q → A) {p : Program Q A T} {log : List (Q × A)}
    (h : Meets (stackContract entries may) post p (Runs.after stack d (log.flatMap entries)))
    (hlog : Runs.Along (stackAfter entries) (fun d x => MayCall entries may d x.1) d log) :
    Runs.Along (stackAfter entries) (fun d x => MayCall entries may d x.1) d (p.exec answer log).2 ∧
      post (p.exec answer log).1
        (Runs.after stack d ((p.exec answer log).2.flatMap entries)) := by
  rw [Runs.after_flatMap] at h ⊢
  exact h.along_exec answer hlog

/-- Where every call may be made, every entry fits. -/
theorem along_fits_of_mayCall {log : List (Q × A)}
    (h : Runs.Along (stackAfter entries) (fun d x => MayCall entries may d x.1) d log) :
    Runs.Along stack Fits d (log.flatMap entries) := by
  rw [Runs.along_flatMap]
  exact h.mono fun d x hx => hx.1 x.2

end Programs

end Ledger
