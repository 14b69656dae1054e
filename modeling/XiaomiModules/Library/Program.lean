import Mathlib.Tactic.Common
import XiaomiModules.Library.Runs

/-!
# Programs that make calls

A program is done with a result, or makes a call and goes on with its answer. Between two calls
nothing of the program runs, so an environment may act there; who answers the calls, and from
which state, is left to the machine that runs the program.

A contract says, over an abstract state, what may be asked and how a call may be answered. That a
program meets a contract is checked on the program alone, and gives a machine whose answers follow
the contract an invariant for every position of the program.

An execution answers the calls from the log of those before, so that any environment is one. Where
the abstract state is a function of the log, a contract that is met holds along every execution.

## Main definitions

* `Program Q A R`: programs with calls `Q`, answers `A` and results `R`
* `Program.ask`: the program of one call
* `Program.mapCalls`: a program whose calls are part of a larger interface
* `Program.Contract`, `Program.Meets`: contracts, and the programs that meet them
* `Program.exec`: executions

## Main results

* `Program.meets_ask_bind`: a contract across one call
* `Program.meets_ask_guard`: a contract across a call whose answer may be an error
* `Program.meets_bind`, `Program.meets_mapCalls`: a contract across a program
* `Program.Meets.along_exec`: a contract along an execution
-/

/-- A program: done with a result, or at a call, to go on with its answer. -/
inductive Program (Q A R : Type)
  | done (r : R)
  | call (q : Q) (next : A → Program Q A R)

namespace Program

variable {Q Q' A R S D : Type}

/-- One program after another. -/
def bind : Program Q A R → (R → Program Q A S) → Program Q A S
  | done r, f => f r
  | call q next, f => call q fun a => (next a).bind f

instance : Monad (Program Q A) where
  pure := done
  bind := bind

/-- One call; its answer is the result. -/
def ask (q : Q) : Program Q A A := call q done

/-- The program with its calls as calls of a larger interface. -/
def mapCalls (f : Q → Q') : Program Q A R → Program Q' A R
  | done r => done r
  | call q next => call (f q) fun a => (next a).mapCalls f

/-- What may be asked in an abstract state, and how a call may be answered there. -/
structure Contract (Q A D : Type) where
  pre : D → Q → Prop
  may : D → Q → A → D → Prop

/-- Every call of the program may be asked where it is asked, and every result satisfies the
postcondition, however the calls are answered within the contract. -/
def Meets (c : Contract Q A D) (post : R → D → Prop) : Program Q A R → D → Prop
  | done r, d => post r d
  | call q next, d => c.pre d q ∧ ∀ a d', c.may d q a d' → Meets c post (next a) d'

variable {c : Contract Q A D} {post : R → D → Prop} {d : D}

@[simp] theorem meets_pure (r : R) : Meets c post (pure r) d ↔ post r d := Iff.rfl

@[simp] theorem meets_call (q : Q) (next : A → Program Q A R) :
    Meets c post (call q next) d ↔
      c.pre d q ∧ ∀ a d', c.may d q a d' → Meets c post (next a) d' := Iff.rfl

/-- A program that starts with a call meets a contract where the call may be asked and the rest
meets it after every answer. -/
@[simp] theorem meets_ask_bind (q : Q) (f : A → Program Q A R) :
    Meets c post (ask q >>= f) d ↔ c.pre d q ∧ ∀ a d', c.may d q a d' → Meets c post (f a) d' :=
  Iff.rfl

/-- The same where the program goes one way after a zero answer and another after any other. -/
theorem meets_ask_guard [Zero A] [DecidableEq A] (q : Q) (err : A → Program Q A R)
    (rest : Program Q A R) :
    Meets c post (ask q >>= fun ret => if ret ≠ 0 then err ret else rest) d ↔
      c.pre d q ∧ (∀ ret ≠ 0, ∀ d', c.may d q ret d' → Meets c post (err ret) d') ∧
        ∀ d', c.may d q 0 d' → Meets c post rest d' := by
  rw [meets_ask_bind]
  refine and_congr_right fun _ => ?_
  constructor
  · intro h
    refine ⟨fun ret hret d' hd => ?_, fun d' hd => ?_⟩
    · have herr := h ret d' hd
      rwa [if_pos hret] at herr
    · have hrest := h 0 d' hd
      rwa [if_neg (not_not.mpr rfl)] at hrest
  · rintro ⟨herr, hrest⟩ ret d' hd
    by_cases hret : ret = 0
    · subst hret
      rw [if_neg (not_not.mpr rfl)]
      exact hrest d' hd
    · rw [if_pos hret]
      exact herr ret hret d' hd

/-- **One program after another**: the second meets the contract from every end of the first. -/
theorem meets_bind {post : S → D → Prop} (p : Program Q A R) (f : R → Program Q A S) :
    Meets c post (p >>= f) d ↔ Meets c (fun r d => Meets c post (f r) d) p d := by
  induction p generalizing d with
  | done r => exact Iff.rfl
  | call q next ih =>
    exact and_congr_right fun _ => forall₂_congr fun a d' => imp_congr_right fun _ => ih a

theorem Meets.mono {post' : R → D → Prop} (hpost : ∀ r d, post r d → post' r d)
    {p : Program Q A R} (h : Meets c post p d) : Meets c post' p d := by
  induction p generalizing d with
  | done r => exact hpost r d h
  | call q next ih => exact ⟨h.1, fun a d' hd => ih a (h.2 a d' hd)⟩

/-- A contract on the calls of a smaller interface. -/
def Contract.comap (c : Contract Q' A D) (f : Q → Q') : Contract Q A D where
  pre d q := c.pre d (f q)
  may d q := c.may d (f q)

theorem meets_mapCalls {c : Contract Q' A D} (f : Q → Q') (p : Program Q A R) :
    Meets c post (p.mapCalls f) d ↔ Meets (c.comap f) post p d := by
  induction p generalizing d with
  | done r => exact Iff.rfl
  | call q next ih =>
    exact and_congr_right fun _ => forall₂_congr fun a d' => imp_congr_right fun _ => ih a

/-! ## Executions -/

/-- The result of a program and the log of its calls with their answers. An answer may depend on
everything that is in the log. -/
def exec (answer : List (Q × A) → Q → A) : Program Q A R → List (Q × A) → R × List (Q × A)
  | done r, log => (r, log)
  | call q next, log => (next (answer log q)).exec answer (log ++ [(q, answer log q)])

/-- The contract whose abstract state is a function of the log. -/
def Contract.ofStep (pre : D → Q → Prop) (step : D → Q × A → D) : Contract Q A D where
  pre := pre
  may d q a d' := d' = step d (q, a)

/-- **The execution rule**: every call of an execution is made where the contract lets it be made,
and the result satisfies the postcondition. -/
theorem Meets.along_exec {pre : D → Q → Prop} {step : D → Q × A → D}
    (answer : List (Q × A) → Q → A) {p : Program Q A R} {log : List (Q × A)}
    (h : Meets (.ofStep pre step) post p (Runs.after step d log))
    (hlog : Runs.Along step (fun d x => pre d x.1) d log) :
    Runs.Along step (fun d x => pre d x.1) d (p.exec answer log).2 ∧
      post (p.exec answer log).1 (Runs.after step d (p.exec answer log).2) := by
  induction p generalizing log with
  | done r => exact ⟨hlog, h⟩
  | call q next ih =>
    refine ih (answer log q) ?_ ((Runs.along_snoc d log _).mpr ⟨hlog, h.1⟩)
    rw [Runs.after_snoc]
    exact h.2 _ _ rfl

end Program
