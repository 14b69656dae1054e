import Mathlib.Data.Finset.Basic
import XiaomiModules.PerfHelper.Text

/-!
# Loading and unloading perf_helper

`perf_helper_init` runs three initialisers and, where one fails, undoes those that came before it.
The kernel keeps the registered names when the module goes, and a later load finds them taken.

What an initialiser registers are the nodes of its stage, and what the exit of a stage removes are
all nodes of it, for the last two stages where their kobject is at hand. So unloading removes
whatever is there under the names of the module.

## Main definitions

* `HelperNode`, `Registry`: what the module registers, and what is registered
* `HelperAnswers`: what the kernel answers to the creation calls of a load
* `perfHelperInit`, `perfHelperExit`: the two functions
* `HelperStage`, `Confined`: the initialisers, and changes to the nodes of one of them

## Main results

* `mem_perflockExit`, `mem_mimdExit`, `mem_schedAssiExit`: what an exit removes
* `registered_perfHelperExit`: unloading after a load that succeeded leaves nothing
* `perfHelperInit_cases`: a load stops at the first initialiser that fails
* `kobjInit_cases`: what becomes of a kobject and its group
-/

namespace XiaomiModules

/-! ## The registry -/

/-- The proc entries: the files that keep a text, and the pids. -/
inductive ProcEntry
  | text (file : ProcFile)
  | kswapdPid
  | kcompactdPid
  | sfuiPid
  | sfrePid
deriving DecidableEq

/-- The directories below `/proc`. -/
inductive ProcDir
  | perflock
  | mimd
deriving DecidableEq

/-- The kobjects below `/sys/kernel`. -/
inductive HelperKobj
  | mimd
  | perfHelper
deriving DecidableEq

/-- What the module registers. -/
inductive HelperNode
  | dir (name : ProcDir)
  | entry (name : ProcEntry)
  | kobj (name : HelperKobj)
  | group (name : HelperKobj)
deriving DecidableEq

/-- The directory of an entry. -/
def ProcEntry.dir : ProcEntry → ProcDir
  | .text .mimdlog | .text .globalReclaim => .mimd
  | _ => .perflock

/-- The node is a directory or one of its entries. -/
def HelperNode.inSubtree (d : ProcDir) : HelperNode → Bool
  | .dir name => name = d
  | .entry name => name.dir = d
  | _ => false

/-- What is registered. -/
abbrev Registry := Finset HelperNode

/-- What the kernel answers to the creation calls of a load: whether a directory, an entry and a
kobject is made where its name is free, and the error of a group, 0 if it has none. -/
structure HelperAnswers where
  makesDir : ProcDir → Bool
  makesEntry : ProcEntry → Bool
  makesKobj : HelperKobj → Bool
  groupErr : HelperKobj → ℕ

/-- Registering a node: the kernel refuses it, or its name is taken, or it is made. -/
def Registry.add (r : Registry) (n : HelperNode) (made : Bool) : Bool × Registry :=
  if made = true ∧ n ∉ r then (true, insert n r) else (false, r)

/-- `proc_mkdir(name, NULL)`. -/
def procMkdir (a : HelperAnswers) (r : Registry) (d : ProcDir) : Bool × Registry :=
  r.add (.dir d) (a.makesDir d)

/-- `proc_create(name, mode, parent, ops)`, whose result is only reported. -/
def procCreate (a : HelperAnswers) (r : Registry) (e : ProcEntry) : Registry :=
  (r.add (.entry e) (a.makesEntry e)).2

/-- `kobject_create_and_add(name, kernel_kobj)`. -/
def kobjectCreateAndAdd (a : HelperAnswers) (r : Registry) (k : HelperKobj) : Bool × Registry :=
  r.add (.kobj k) (a.makesKobj k)

/-- `sysfs_create_group(kobj, grp)`. -/
def sysfsCreateGroup (a : HelperAnswers) (r : Registry) (k : HelperKobj) : ℤ × Registry :=
  if a.groupErr k = 0 then (0, insert (HelperNode.group k) r) else (-a.groupErr k, r)

/-- `remove_proc_subtree(name, NULL)`. -/
def removeProcSubtree (r : Registry) (d : ProcDir) : Registry :=
  r.filter fun n => n.inSubtree d = false

/-- `sysfs_remove_group(kobj, grp)` and `kobject_put(kobj)`. -/
def removeKobj (r : Registry) (k : HelperKobj) : Registry :=
  (r.erase (HelperNode.group k)).erase (HelperNode.kobj k)

/-! ## The module -/

/-- The pointers of the module that are set, and what is registered. -/
structure HelperModule where
  perflockDir : Bool
  mimdDir : Bool
  mimdKobj : Bool
  schedAssiKobj : Bool
  registered : Registry

/-- The module when it is loaded. -/
def HelperModule.fresh (r : Registry) : HelperModule := ⟨false, false, false, false, r⟩

/-- `perflock_init()`. -/
def perflockInit (a : HelperAnswers) (m : HelperModule) : ℤ × HelperModule :=
  let (dir, r) := procMkdir a m.registered .perflock
  if dir = false then (-ENOMEM, { m with perflockDir := false, registered := r })
  else
    let r := procCreate a r (.text .perflockRecords)
    let r := procCreate a r (.text .perflockException)
    let r := procCreate a r .kswapdPid
    let r := procCreate a r .kcompactdPid
    let r := procCreate a r .sfuiPid
    let r := procCreate a r .sfrePid
    (0, { m with perflockDir := true, registered := r })

/-- `perflock_exit()`. -/
def perflockExit (m : HelperModule) : HelperModule :=
  { m with perflockDir := false, registered := removeProcSubtree m.registered .perflock }

/-- A kobject with its group, as `mimd_init` and `sched_assi_init` create them: the return value,
and whether the pointer is set. -/
def kobjInit (a : HelperAnswers) (r : Registry) (k : HelperKobj) : ℤ × Bool × Registry :=
  let (kobj, r) := kobjectCreateAndAdd a r k
  if kobj = false then (-ENOMEM, false, r)
  else
    let (ret, r) := sysfsCreateGroup a r k
    (ret, true, r)

/-- The directory of `mimd_init`; without it the entries are left out. -/
def mimdMkdir (a : HelperAnswers) (r : Registry) : Bool × Registry :=
  let (dir, r) := procMkdir a r .mimd
  if dir = true then
    let r := procCreate a r (.text .mimdlog)
    let r := procCreate a r (.text .globalReclaim)
    (true, r)
  else (false, r)

/-- `mimd_init()`. -/
def mimdInit (a : HelperAnswers) (m : HelperModule) : ℤ × HelperModule :=
  let (dir, r) := mimdMkdir a m.registered
  let (ret, kobj, r) := kobjInit a r .mimd
  (ret, { m with mimdDir := dir, mimdKobj := kobj, registered := r })

/-- `mimd_exit()`. -/
def mimdExit (m : HelperModule) : HelperModule :=
  let r := if m.mimdKobj = true then removeKobj m.registered .mimd else m.registered
  { m with mimdKobj := false, mimdDir := false, registered := removeProcSubtree r .mimd }

/-- `sched_assi_init()`. -/
def schedAssiInit (a : HelperAnswers) (m : HelperModule) : ℤ × HelperModule :=
  let (ret, kobj, r) := kobjInit a m.registered .perfHelper
  (ret, { m with schedAssiKobj := kobj, registered := r })

/-- `sched_assi_exit()`. -/
def schedAssiExit (m : HelperModule) : HelperModule :=
  if m.schedAssiKobj = false then m
  else { m with schedAssiKobj := false, registered := removeKobj m.registered .perfHelper }

/-- `perf_helper_init()`. -/
def perfHelperInit (a : HelperAnswers) (m : HelperModule) : ℤ × HelperModule :=
  let (ret, m) := perflockInit a m
  if ret ≠ 0 then (ret, m)
  else
    let (ret, m) := mimdInit a m
    if ret ≠ 0 then (ret, perflockExit m)
    else
      let (ret, m) := schedAssiInit a m
      if ret ≠ 0 then (ret, perflockExit (mimdExit m)) else (0, m)

/-- `perf_helper_exit()`. -/
def perfHelperExit (m : HelperModule) : HelperModule :=
  perflockExit (mimdExit (schedAssiExit m))

/-! ## Stages -/

/-- The three initialisers. -/
inductive HelperStage
  | perflock
  | mimd
  | schedAssi
deriving DecidableEq

/-- The initialiser that registers a node. -/
def HelperNode.stage : HelperNode → HelperStage
  | .dir .perflock => .perflock
  | .dir .mimd => .mimd
  | .entry e => match e.dir with
    | .perflock => .perflock
    | .mimd => .mimd
  | .kobj .mimd | .group .mimd => .mimd
  | .kobj .perfHelper | .group .perfHelper => .schedAssi

/-- Two registries differ in the nodes of one stage only. -/
def Confined (stage : HelperStage) (r r' : Registry) : Prop :=
  ∀ n : HelperNode, n.stage ≠ stage → (n ∈ r' ↔ n ∈ r)

/-- Nothing of a stage is registered. -/
def Registry.Free (stage : HelperStage) (r : Registry) : Prop :=
  ∀ n ∈ r, HelperNode.stage n ≠ stage

section Stages

variable {stage : HelperStage} {r r' r'' : Registry} {n : HelperNode} {m : HelperModule}

theorem Confined.refl (stage : HelperStage) (r : Registry) : Confined stage r r :=
  fun _ _ => Iff.rfl

theorem Confined.trans (h : Confined stage r r') (h' : Confined stage r' r'') :
    Confined stage r r'' :=
  fun n hn => (h' n hn).trans (h n hn)

theorem Confined.free {other : HelperStage} (h : Confined stage r r') (hne : other ≠ stage)
    (hr : r.Free other) : r'.Free other := by
  intro n hn heq
  exact hr n ((h n (heq ▸ hne)).mp hn) heq

theorem free_empty (stage : HelperStage) : Registry.Free stage ∅ :=
  fun _ hn => absurd hn (Finset.notMem_empty _)

/-- Removing the nodes of some stages leaves nothing exactly where the others are free. -/
theorem eq_empty_iff_of_removed {P : HelperStage → Prop}
    (h : ∀ n : HelperNode, n ∈ r' ↔ n ∈ r ∧ ¬ P n.stage) :
    r' = ∅ ↔ ∀ stage, ¬ P stage → r.Free stage := by
  constructor
  · intro hempty stage hstage n hn heq
    have hleft : n ∈ r' := (h n).mpr ⟨hn, heq ▸ hstage⟩
    rw [hempty] at hleft
    exact Finset.notMem_empty n hleft
  · intro hfree
    refine Finset.eq_empty_of_forall_notMem fun n hn => ?_
    obtain ⟨hreg, hstage⟩ := (h n).mp hn
    exact hfree n.stage hstage n hreg rfl

/-! ### Creation -/

theorem add_fst (r : Registry) (n : HelperNode) (made : Bool) :
    (r.add n made).1 = true ↔ made = true ∧ n ∉ r := by
  unfold Registry.add
  split_ifs with h
  · exact iff_of_true rfl h
  · exact iff_of_false nofun h

theorem mem_add (r : Registry) (x : HelperNode) (made : Bool) :
    n ∈ (r.add x made).2 ↔ made = true ∧ n = x ∨ n ∈ r := by
  unfold Registry.add
  split_ifs with h
  · rw [Finset.mem_insert, and_iff_right h.1]
  · refine (or_iff_right_of_imp ?_).symm
    rintro ⟨hmade, rfl⟩
    exact by_contra fun hfree => h ⟨hmade, hfree⟩

theorem mem_sysfsCreateGroup (a : HelperAnswers) (r : Registry) (k : HelperKobj) :
    n ∈ (sysfsCreateGroup a r k).2 ↔ a.groupErr k = 0 ∧ n = .group k ∨ n ∈ r := by
  unfold sysfsCreateGroup
  split_ifs with h
  · rw [Finset.mem_insert, and_iff_right h]
  · exact (or_iff_right fun hn => h hn.1).symm

theorem sysfsCreateGroup_fst (a : HelperAnswers) (r : Registry) (k : HelperKobj) :
    (sysfsCreateGroup a r k).1 = -a.groupErr k := by
  unfold sysfsCreateGroup
  split_ifs with h
  · rw [h]
    rfl
  · rfl

theorem confined_add {x : HelperNode} (hx : x.stage = stage) (r : Registry) (made : Bool) :
    Confined stage r (r.add x made).2 := by
  intro n hn
  rw [mem_add]
  exact or_iff_right fun h => hn (h.2 ▸ hx)

theorem Confined.procCreate {e : ProcEntry} (h : Confined stage r r')
    (he : (HelperNode.entry e).stage = stage) (a : HelperAnswers) :
    Confined stage r (procCreate a r' e) :=
  h.trans (confined_add he r' _)

theorem confined_sysfsCreateGroup {k : HelperKobj} (hk : (HelperNode.group k).stage = stage)
    (a : HelperAnswers) (r : Registry) : Confined stage r (sysfsCreateGroup a r k).2 := by
  intro n hn
  rw [mem_sysfsCreateGroup]
  exact or_iff_right fun h => hn (h.2 ▸ hk)

/-! ### Removal -/

/-- The nodes of the first two stages are a kobject with its group, and a directory with its
entries. -/
theorem inSubtree_eq_false_iff_perflock (n : HelperNode) :
    n.inSubtree .perflock = false ↔ n.stage ≠ .perflock := by
  rcases n with (_ | _) | ((_ | _ | _ | _) | _ | _ | _ | _) | (_ | _) | (_ | _)
  all_goals decide

theorem mem_removeKobj (r : Registry) (k : HelperKobj) :
    n ∈ removeKobj r k ↔ n ≠ .kobj k ∧ n ≠ .group k ∧ n ∈ r := by
  rw [removeKobj, Finset.mem_erase, Finset.mem_erase]

theorem mem_removeProcSubtree (r : Registry) (d : ProcDir) :
    n ∈ removeProcSubtree r d ↔ n ∈ r ∧ n.inSubtree d = false :=
  Finset.mem_filter

theorem mem_perflockExit (m : HelperModule) :
    n ∈ (perflockExit m).registered ↔ n ∈ m.registered ∧ n.stage ≠ .perflock := by
  rw [← inSubtree_eq_false_iff_perflock]
  exact mem_removeProcSubtree m.registered .perflock

theorem mimd_node_iff (n : HelperNode) :
    ((n ≠ .kobj .mimd ∧ n ≠ .group .mimd) ∧ n.inSubtree .mimd = false) ↔ n.stage ≠ .mimd := by
  rcases n with (_ | _) | ((_ | _ | _ | _) | _ | _ | _ | _) | (_ | _) | (_ | _)
  all_goals decide

theorem schedAssi_node_iff (n : HelperNode) :
    (n ≠ .kobj .perfHelper ∧ n ≠ .group .perfHelper) ↔ n.stage ≠ .schedAssi := by
  rcases n with (_ | _) | ((_ | _ | _ | _) | _ | _ | _ | _) | (_ | _) | (_ | _)
  all_goals decide

theorem mem_mimdExit (h : m.mimdKobj = true) :
    n ∈ (mimdExit m).registered ↔ n ∈ m.registered ∧ n.stage ≠ .mimd := by
  have hregistered : (mimdExit m).registered =
      removeProcSubtree (removeKobj m.registered .mimd) .mimd := by
    rw [mimdExit, if_pos h]
  rw [hregistered, mem_removeProcSubtree, mem_removeKobj, ← mimd_node_iff]
  tauto

theorem mem_schedAssiExit (h : m.schedAssiKobj = true) :
    n ∈ (schedAssiExit m).registered ↔ n ∈ m.registered ∧ n.stage ≠ .schedAssi := by
  have hregistered : (schedAssiExit m).registered = removeKobj m.registered .perfHelper := by
    rw [schedAssiExit, if_neg (by simp [h])]
  rw [hregistered, mem_removeKobj, ← schedAssi_node_iff]
  tauto

theorem mimdKobj_schedAssiExit (m : HelperModule) : (schedAssiExit m).mimdKobj = m.mimdKobj := by
  unfold schedAssiExit
  split_ifs
  · rfl
  · rfl

/-- **Unloading** with both kobjects at hand leaves nothing, whatever there was. -/
theorem registered_perfHelperExit (hmimd : m.mimdKobj = true) (hassi : m.schedAssiKobj = true) :
    (perfHelperExit m).registered = ∅ := by
  refine Finset.eq_empty_of_forall_notMem fun n hn => ?_
  rw [perfHelperExit, mem_perflockExit, mem_mimdExit ((mimdKobj_schedAssiExit m).trans hmimd),
    mem_schedAssiExit hassi] at hn
  obtain ⟨⟨⟨-, hthird⟩, hsecond⟩, hfirst⟩ := hn
  cases hstage : n.stage with
  | perflock => exact hfirst hstage
  | mimd => exact hsecond hstage
  | schedAssi => exact hthird hstage

/-- Undoing the first stage leaves nothing where the others are free. -/
theorem registered_perflockExit_eq_empty_iff (hassi : m.registered.Free .schedAssi) :
    (perflockExit m).registered = ∅ ↔ m.registered.Free .mimd := by
  rw [eq_empty_iff_of_removed (P := (· = .perflock)) fun n => mem_perflockExit m]
  constructor
  · exact fun h => h .mimd nofun
  · rintro hmimd (_ | _ | _) hstage
    · exact absurd rfl hstage
    · exact hmimd
    · exact hassi

/-- Undoing the first two stages leaves nothing where the third is free. -/
theorem registered_perflockExit_mimdExit_eq_empty_iff (hkobj : m.mimdKobj = true) :
    (perflockExit (mimdExit m)).registered = ∅ ↔ m.registered.Free .schedAssi := by
  have hmem : ∀ n : HelperNode, n ∈ (perflockExit (mimdExit m)).registered ↔
      n ∈ m.registered ∧ ¬ (n.stage = .mimd ∨ n.stage = .perflock) := by
    intro n
    rw [mem_perflockExit, mem_mimdExit hkobj, not_or, and_assoc]
  rw [eq_empty_iff_of_removed (P := fun stage => stage = .mimd ∨ stage = .perflock) hmem]
  constructor
  · exact fun h => h .schedAssi (by decide)
  · rintro hassi (_ | _ | _) hstage
    · exact absurd (Or.inr rfl) hstage
    · exact absurd (Or.inl rfl) hstage
    · exact hassi

end Stages

/-! ## Loads -/

section Loads

variable {a : HelperAnswers} {m : HelperModule} {r : Registry} {k : HelperKobj}

/-- A load stops at the first initialiser that fails, and undoes those before it. -/
theorem perfHelperInit_cases (a : HelperAnswers) (m : HelperModule) :
    ((perflockInit a m).1 ≠ 0 ∧ perfHelperInit a m = perflockInit a m) ∨
    ∃ m₁, perflockInit a m = (0, m₁) ∧
      (((mimdInit a m₁).1 ≠ 0 ∧
        perfHelperInit a m = ((mimdInit a m₁).1, perflockExit (mimdInit a m₁).2)) ∨
      ∃ m₂, mimdInit a m₁ = (0, m₂) ∧
        (((schedAssiInit a m₂).1 ≠ 0 ∧ perfHelperInit a m =
          ((schedAssiInit a m₂).1, perflockExit (mimdExit (schedAssiInit a m₂).2))) ∨
        ∃ m₃, schedAssiInit a m₂ = (0, m₃) ∧ perfHelperInit a m = (0, m₃))) := by
  unfold perfHelperInit
  rcases hfirst : perflockInit a m with ⟨ret₁, m₁⟩
  by_cases h₁ : ret₁ = 0
  · subst h₁
    refine Or.inr ⟨m₁, rfl, ?_⟩
    rcases hsecond : mimdInit a m₁ with ⟨ret₂, m₂⟩
    by_cases h₂ : ret₂ = 0
    · subst h₂
      refine Or.inr ⟨m₂, rfl, ?_⟩
      rcases hthird : schedAssiInit a m₂ with ⟨ret₃, m₃⟩
      by_cases h₃ : ret₃ = 0
      · subst h₃
        exact Or.inr ⟨m₃, rfl, by simp [hsecond, hthird]⟩
      · exact Or.inl ⟨h₃, by simp [hsecond, hthird, h₃]⟩
    · exact Or.inl ⟨h₂, by simp [hsecond, h₂]⟩
  · exact Or.inl ⟨h₁, by simp [h₁]⟩

/-! ### The initialisers -/

/-- `perflock_init` fails before it registers anything. -/
theorem perflockInit_cases (a : HelperAnswers) (m : HelperModule) :
    (¬ (a.makesDir .perflock = true ∧ HelperNode.dir .perflock ∉ m.registered) ∧
      (perflockInit a m).1 = -ENOMEM ∧ (perflockInit a m).2.registered = m.registered) ∨
    ((a.makesDir .perflock = true ∧ HelperNode.dir .perflock ∉ m.registered) ∧
      (perflockInit a m).1 = 0) := by
  by_cases h : a.makesDir .perflock = true ∧ HelperNode.dir .perflock ∉ m.registered
  · exact Or.inr ⟨h, by simp [perflockInit, procMkdir, Registry.add, h]⟩
  · refine Or.inl ⟨h, ?_⟩
    simp [perflockInit, procMkdir, Registry.add, h]

theorem confined_perflockInit (a : HelperAnswers) (m : HelperModule) :
    Confined .perflock m.registered (perflockInit a m).2.registered := by
  have hdir : Confined .perflock m.registered (procMkdir a m.registered .perflock).2 :=
    confined_add (x := .dir .perflock) rfl m.registered _
  unfold perflockInit
  dsimp only
  split_ifs
  · exact hdir
  · have htexts := (hdir.procCreate (e := .text .perflockRecords) rfl a).procCreate
      (e := .text .perflockException) rfl a
    have hkernel := (htexts.procCreate (e := .kswapdPid) rfl a).procCreate
      (e := .kcompactdPid) rfl a
    exact (hkernel.procCreate (e := .sfuiPid) rfl a).procCreate (e := .sfrePid) rfl a

/-- A kobject is not made, or is there with its pointer, whatever becomes of its group. -/
theorem kobjInit_cases (a : HelperAnswers) (r : Registry) (k : HelperKobj) :
    (¬ (a.makesKobj k = true ∧ HelperNode.kobj k ∉ r) ∧
      kobjInit a r k = (-ENOMEM, false, r)) ∨
    ((a.makesKobj k = true ∧ HelperNode.kobj k ∉ r) ∧
      ∃ r', kobjInit a r k = (-(a.groupErr k : ℤ), true, r') ∧ HelperNode.kobj k ∈ r' ∧
        Confined (HelperNode.kobj k).stage r r') := by
  by_cases h : a.makesKobj k = true ∧ HelperNode.kobj k ∉ r
  · have hkobj : kobjectCreateAndAdd a r k = (true, insert (HelperNode.kobj k) r) := if_pos h
    refine Or.inr ⟨h, (sysfsCreateGroup a (insert (.kobj k) r) k).2, ?_, ?_, ?_⟩
    · rw [← sysfsCreateGroup_fst a (insert (.kobj k) r) k, kobjInit, hkobj]
      rfl
    · rw [mem_sysfsCreateGroup]
      exact Or.inr (Finset.mem_insert_self _ r)
    · have hmade : Confined (HelperNode.kobj k).stage r (kobjectCreateAndAdd a r k).2 :=
        confined_add (x := .kobj k) rfl r _
      rw [hkobj] at hmade
      refine hmade.trans (confined_sysfsCreateGroup ?_ a _)
      cases k with
      | mimd => rfl
      | perfHelper => rfl
  · have hkobj : kobjectCreateAndAdd a r k = (false, r) := if_neg h
    exact Or.inl ⟨h, by rw [kobjInit, hkobj]; rfl⟩

theorem confined_kobjInit (a : HelperAnswers) (r : Registry) (k : HelperKobj) :
    Confined (HelperNode.kobj k).stage r (kobjInit a r k).2.2 := by
  rcases kobjInit_cases a r k with ⟨-, hinit⟩ | ⟨-, r', hinit, -, hconfined⟩
  · rw [hinit]
    exact Confined.refl _ r
  · rwa [hinit]

theorem kobjInit_fst_eq_zero_iff (a : HelperAnswers) (r : Registry) (k : HelperKobj) :
    (kobjInit a r k).1 = 0 ↔
      (a.makesKobj k = true ∧ HelperNode.kobj k ∉ r) ∧ a.groupErr k = 0 := by
  rcases kobjInit_cases a r k with ⟨hfails, hinit⟩ | ⟨hmakes, r', hinit, -⟩
  · rw [hinit]
    exact iff_of_false (neg_errno_lt_zero ENOMEM).ne fun hmade => hfails hmade.1
  · rw [hinit, and_iff_right hmakes, neg_eq_zero, Int.natCast_eq_zero]

theorem kobjInit_pointer (h : (kobjInit a r k).1 = 0) : (kobjInit a r k).2.1 = true := by
  rcases kobjInit_cases a r k with ⟨-, hinit⟩ | ⟨-, r', hinit, -⟩
  · rw [hinit] at h
    exact absurd h (neg_errno_lt_zero ENOMEM).ne
  · rw [hinit]

/-- Where the kobject's name is free, its stage is free afterwards if the kobject is not made and
nothing else of the stage was there. -/
theorem free_kobjInit_iff (a : HelperAnswers) (h : HelperNode.kobj k ∉ r) :
    (kobjInit a r k).2.2.Free (HelperNode.kobj k).stage ↔
      a.makesKobj k = false ∧ r.Free (HelperNode.kobj k).stage := by
  rcases kobjInit_cases a r k with ⟨hfails, hinit⟩ | ⟨hmakes, r', hinit, hmem, -⟩
  · have hkobj : a.makesKobj k = false :=
      Bool.eq_false_iff.mpr fun hmakes => hfails ⟨hmakes, h⟩
    rw [hinit, and_iff_right hkobj]
  · rw [hinit]
    refine iff_of_false (fun hfree => hfree _ hmem rfl) fun hfails => ?_
    exact absurd (hmakes.1.symm.trans hfails.1) nofun

/-- A kobject that is there stays, and its initialiser fails. -/
theorem kobjInit_of_mem (a : HelperAnswers) (h : HelperNode.kobj k ∈ r) :
    kobjInit a r k = (-ENOMEM, false, r) := by
  rcases kobjInit_cases a r k with ⟨-, hinit⟩ | ⟨hmakes, -⟩
  · exact hinit
  · exact absurd h hmakes.2

theorem confined_mimdMkdir (a : HelperAnswers) (r : Registry) :
    Confined .mimd r (mimdMkdir a r).2 := by
  have hdir : Confined .mimd r (procMkdir a r .mimd).2 :=
    confined_add (x := .dir .mimd) rfl r _
  unfold mimdMkdir
  dsimp only
  split_ifs
  · exact (hdir.procCreate (e := .text .mimdlog) rfl a).procCreate
      (e := .text .globalReclaim) rfl a
  · exact hdir

theorem kobj_mem_mimdMkdir (a : HelperAnswers) (r : Registry) (k : HelperKobj) :
    HelperNode.kobj k ∈ (mimdMkdir a r).2 ↔ HelperNode.kobj k ∈ r := by
  unfold mimdMkdir
  dsimp only
  split_ifs
  · simp [procCreate, procMkdir, mem_add]
  · simp [procMkdir, mem_add]

/-- The directory stays where it is made. -/
theorem free_mimdMkdir_iff (a : HelperAnswers) (h : r.Free .mimd) :
    (mimdMkdir a r).2.Free .mimd ↔ a.makesDir .mimd = false := by
  have hnone : HelperNode.dir .mimd ∉ r := fun hmem => h _ hmem rfl
  cases hdir : a.makesDir .mimd with
  | false =>
    have hsame : mimdMkdir a r = (false, r) := by
      simp [mimdMkdir, procMkdir, Registry.add, hdir]
    rw [hsame]
    exact iff_of_true h rfl
  | true =>
    have hmem : HelperNode.dir .mimd ∈ (mimdMkdir a r).2 := by
      simp [mimdMkdir, procMkdir, procCreate, add_fst, mem_add, hdir, hnone]
    exact iff_of_false (fun hfree => hfree _ hmem rfl) nofun

theorem confined_mimdInit (a : HelperAnswers) (m : HelperModule) :
    Confined .mimd m.registered (mimdInit a m).2.registered :=
  (confined_mimdMkdir a m.registered).trans (confined_kobjInit a _ .mimd)

theorem mimdKobj_schedAssiInit (a : HelperAnswers) (m : HelperModule) :
    (schedAssiInit a m).2.mimdKobj = m.mimdKobj := rfl

/-- A stage that succeeds has its kobject. -/
theorem mimdKobj_of_mimdInit {m' : HelperModule} (h : mimdInit a m = (0, m')) :
    m'.mimdKobj = true := by
  have hpointer : (mimdInit a m).1 = 0 → (mimdInit a m).2.mimdKobj = true := kobjInit_pointer
  rw [h] at hpointer
  exact hpointer rfl

theorem schedAssiKobj_of_schedAssiInit {m' : HelperModule} (h : schedAssiInit a m = (0, m')) :
    m'.schedAssiKobj = true := by
  have hpointer : (schedAssiInit a m).1 = 0 → (schedAssiInit a m).2.schedAssiKobj = true :=
    kobjInit_pointer
  rw [h] at hpointer
  exact hpointer rfl

/-- A load that succeeds has both kobjects at hand. -/
theorem kobjs_of_perfHelperInit (h : (perfHelperInit a m).1 = 0) :
    (perfHelperInit a m).2.mimdKobj = true ∧ (perfHelperInit a m).2.schedAssiKobj = true := by
  rcases perfHelperInit_cases a m with ⟨hret, heq⟩ | ⟨m₁, -, hsecond⟩
  · exact absurd (heq ▸ h) hret
  rcases hsecond with ⟨hret, heq⟩ | ⟨m₂, hmimd, hthird⟩
  · rw [heq] at h
    exact absurd h hret
  rcases hthird with ⟨hret, heq⟩ | ⟨m₃, hassi, heq⟩
  · rw [heq] at h
    exact absurd h hret
  · have hkept := mimdKobj_schedAssiInit a m₂
    rw [hassi, mimdKobj_of_mimdInit hmimd] at hkept
    rw [heq]
    exact ⟨hkept, schedAssiKobj_of_schedAssiInit hassi⟩

end Loads

end XiaomiModules
