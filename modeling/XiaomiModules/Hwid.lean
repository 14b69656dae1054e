import XiaomiModules.Kernel.Params
import XiaomiModules.Library.Ledger

/-!
# The hardware identity

hwid keeps four numbers that it is given when it is loaded, and shows each of them in hexadecimal.
The parameters are read in the base that a text asks for, so what a file shows is an argument that
sets its parameter to the number shown. One of the numbers packs four versions, a byte each, and
another one names the product.

The module creates a kobject with a group of files. When it removes the kobject it does not put it,
so that the object stays allocated.

## Main definitions

* `Hwid`: the numbers
* `Hwid.showOf`, `Hwid.read`: the show functions, and what is read of a file
* `Hwid.load`: a load with arguments
* `hwidInit`, `hwidExit`: what they take and give back

## Main results

* `lookupProductName_inj`: a product name stands for one project
* `Hwid.toNat_hwidValue`: the versions are the bytes of the value
* `Hwid.load_read`: a load with what the files show
* `held_hwidLives`: what remains after many loads and unloads
-/

namespace XiaomiModules

open Text (ascii)
open Ledger (Entry held)

/-! ## The numbers -/

/-- The parameters, by their names. Each is a `uint`, and is shown by a file. -/
inductive HwidParam
  | hwidValue
  | project
  | buildAdc
  | projectAdc
deriving DecidableEq

/-- The variables of the parameters. -/
structure Hwid where
  value : HwidParam → UInt32

/-- The table `product_names`. -/
def productNames : List (UInt32 × String) :=
  [(0, "unknown"), (1, "annibale"), (2, "manet"), (3, "aurora"), (4, "cupid"), (5, "miro"),
    (6, "piano"), (7, "zeus"), (8, "nirvana"), (9, "ruyi"), (10, "caiwei"), (11, "diting"),
    (12, "yupei"), (13, "chenfeng"), (14, "babylon"), (15, "ingres"), (16, "loki"),
    (17, "unicorn"), (18, "fuxi"), (19, "luming"), (20, "wangshu"), (21, "zizhan"),
    (22, "haotian"), (23, "bixi"), (24, "onyx"), (25, "houji"), (26, "socrates"), (27, "ziyi"),
    (28, "xuanyuan"), (29, "katyusha"), (30, "dada"), (31, "peridot"), (32, "shennong"),
    (33, "thor"), (34, "suiren"), (35, "ishtar"), (36, "mayfly"), (37, "goku"), (38, "nuwa")]

/-- `lookup_product_name(id)`. -/
def lookupProductName (id : UInt32) : String :=
  match productNames.find? fun entry => entry.1 = id with
  | some entry => entry.2
  | none => "unknown"

theorem nodup_productNames : (productNames.map (·.2)).Nodup := by decide

/-- A name other than that of an unknown product is one of the table. -/
theorem mem_productNames {id : UInt32} (h : lookupProductName id ≠ "unknown") :
    (id, lookupProductName id) ∈ productNames := by
  rw [lookupProductName] at h ⊢
  cases hfind : productNames.find? fun entry => entry.1 = id with
  | some entry =>
    have hid : entry.1 = id := by simpa using List.find?_some hfind
    rw [← hid]
    exact List.mem_of_find?_eq_some hfind
  | none =>
    rw [hfind] at h
    exact absurd rfl h

/-- **A product name** stands for one project, unless the product is unknown. -/
theorem lookupProductName_inj {id id' : UInt32} (h : lookupProductName id ≠ "unknown") :
    lookupProductName id = lookupProductName id' ↔ id = id' := by
  constructor
  · intro heq
    have hmem := mem_productNames h
    have hmem' := mem_productNames (heq ▸ h)
    exact congrArg Prod.fst (List.inj_on_of_nodup_map nodup_productNames hmem hmem' heq)
  · exact congrArg lookupProductName

namespace Hwid

variable (p : Hwid)

/-- `product_name_get()`. -/
def productNameGet : String := lookupProductName (p.value .project)

/-- `get_hw_project_adc()`. -/
def getHwProjectAdc : UInt32 := p.value .projectAdc

/-- `get_hw_build_adc()`. -/
def getHwBuildAdc : UInt32 := p.value .buildAdc

/-- `get_hw_version_platform()`. -/
def getHwVersionPlatform : UInt32 := p.value .project

/-- `get_hw_id_value()`. -/
def getHwIdValue : UInt32 := p.value .hwidValue

/-- `get_hw_country_version()`. -/
def getHwCountryVersion : UInt32 := (p.value .hwidValue >>> 24) &&& 0xff

/-- `get_hw_version_major()`. -/
def getHwVersionMajor : UInt32 := (p.value .hwidValue >>> 16) &&& 0xff

/-- `get_hw_version_minor()`. -/
def getHwVersionMinor : UInt32 := (p.value .hwidValue >>> 8) &&& 0xff

/-- `get_hw_version_build()`. -/
def getHwVersionBuild : UInt32 := p.value .hwidValue &&& 0xff

/-- **The versions** are the bytes of the value, and the value is made of them. -/
theorem toNat_hwidValue :
    p.getHwIdValue.toNat = p.getHwCountryVersion.toNat * 2 ^ 24 +
      p.getHwVersionMajor.toNat * 2 ^ 16 + p.getHwVersionMinor.toNat * 2 ^ 8 +
        p.getHwVersionBuild.toNat := by
  have hbyte : ∀ x : UInt32, (x &&& 0xff).toNat = x.toNat % 2 ^ 8 := by
    intro x
    rw [UInt32.toNat_and]
    exact Nat.and_two_pow_sub_one_eq_mod x.toNat 8
  have hshift : ∀ x : UInt32, (x >>> 24).toNat = x.toNat / 2 ^ 24 ∧
      (x >>> 16).toNat = x.toNat / 2 ^ 16 ∧ (x >>> 8).toNat = x.toNat / 2 ^ 8 := by
    intro x
    simp [UInt32.toNat_shiftRight, Nat.shiftRight_eq_div_pow]
  obtain ⟨hcountry, hmajor, hminor⟩ := hshift (p.value .hwidValue)
  have hlt := (p.value .hwidValue).toNat_lt
  rw [getHwIdValue, getHwCountryVersion, getHwVersionMajor, getHwVersionMinor, getHwVersionBuild,
    hbyte, hbyte, hbyte, hbyte, hcountry, hmajor, hminor]
  omega

/-! ## Files and arguments -/

/-- `snprintf(buf, PAGE_SIZE, "0x%x\n", x)`, the body of the show functions. -/
def hwidShow (x : UInt32) (page : List UInt8) : ℕ × List UInt8 :=
  snprintf page 0 pageSize (hexText x ++ [10])

/-- `hwid_project_show(kobj, attr, buf)`. -/
def hwidProjectShow : List UInt8 → ℕ × List UInt8 := hwidShow (p.value .project)

/-- `hwid_value_show(kobj, attr, buf)`. -/
def hwidValueShow : List UInt8 → ℕ × List UInt8 := hwidShow (p.value .hwidValue)

/-- `hwid_project_adc_show(kobj, attr, buf)`. -/
def hwidProjectAdcShow : List UInt8 → ℕ × List UInt8 := hwidShow (p.value .projectAdc)

/-- `hwid_build_adc_show(kobj, attr, buf)`. -/
def hwidBuildAdcShow : List UInt8 → ℕ × List UInt8 := hwidShow (p.value .buildAdc)

/-- The show function of the file of a parameter. -/
def showOf : HwidParam → List UInt8 → ℕ × List UInt8
  | .hwidValue => p.hwidValueShow
  | .project => p.hwidProjectShow
  | .buildAdc => p.hwidBuildAdcShow
  | .projectAdc => p.hwidProjectAdcShow

/-- What is read of the file of a parameter. -/
def read (param : HwidParam) : List UInt8 := shown (p.showOf param (List.replicate pageSize 0))

/-- An argument of a load sets its parameter, or fails the load. -/
def setParam (p : Hwid) (arg : HwidParam × List UInt8) : Except ℤ Hwid := do
  let x ← kstrtouint (written arg.2) 0
  .ok ⟨Function.update p.value arg.1 x⟩

/-- The variables after a load with arguments, given one after the other. -/
def load (args : List (HwidParam × List UInt8)) : Except ℤ Hwid :=
  args.foldlM setParam ⟨fun _ => 0⟩

theorem length_hexText_le (x : UInt32) : (hexText x).length ≤ 10 := by
  have hlen := (Nat.length_toDigits_le_iff (by decide) (by decide : 0 < 8)).mpr
    (show x.toNat < 16 ^ 8 from x.toNat_lt)
  rw [hexText, hexNat, List.length_append, List.length_map]
  have hprefix : (ascii "0x").length = 2 := rfl
  omega

/-- Every file shows its own parameter. -/
theorem showOf_eq (param : HwidParam) : p.showOf param = hwidShow (p.value param) := by
  cases param
  all_goals rfl

theorem read_eq (param : HwidParam) : p.read param = hexText (p.value param) ++ [10] := by
  have hlen : (hexText (p.value param) ++ [10]).length < pageSize := by
    have hle := length_hexText_le (p.value param)
    rw [List.length_append, List.length_singleton, pageSize]
    omega
  rw [read, showOf_eq, hwidShow, snprintf_of_lt hlen, shown_scnprintf List.length_replicate hlen]

/-- An argument of the text that a file shows. -/
theorem setParam_hexText (q : Hwid) (param : HwidParam) (x : UInt32) :
    q.setParam (param, hexText x) = .ok ⟨Function.update q.value param x⟩ := by
  have hchars := (chars_written (zero_notMem_hexText x)).trans (List.append_nil _).symm
  have hread := kstrtouint_hexText hchars (Or.inl rfl)
  rw [setParam, hread]
  rfl

/-- **A load with what the files show**, without the newlines: the parameters given are set to the
numbers shown, in any order, and the others are 0. -/
theorem load_read (order : List HwidParam) :
    load (order.map fun param => (param, (p.read param).dropLast)) =
      .ok ⟨fun param => if param ∈ order then p.value param else 0⟩ := by
  have hrun : ∀ (q : Hwid), (order.map fun param => (param, (p.read param).dropLast)).foldlM
      setParam q = .ok ⟨fun param => if param ∈ order then p.value param else q.value param⟩ := by
    induction order with
    | nil => intro q; simp [pure, Except.pure]
    | cons param order ih =>
      intro q
      rw [List.map_cons, List.foldlM_cons, read_eq, List.dropLast_concat, setParam_hexText]
      refine (ih _).trans ?_
      -- a parameter that is set again is set to the value shown
      congr 2
      funext param'
      by_cases heq : param' = param
      · subst heq
        simp
      · simp [heq]
  exact hrun _

end Hwid

/-! ## Loads and unloads -/

/-- What the module takes: the kobject, its place in sysfs, and the group of its files. -/
inductive HwidResource
  | object
  | node
  | group
deriving DecidableEq

/-- What the kernel answers to a load: whether it creates the kobject, and what it returns for the
group. -/
structure HwidAnswers where
  kobject : Bool
  group : ℤ

/-- `hwid_init()`: the return value, whether `hwid_kobj` is set, and what is taken and given back.
`kobject_del` gives back the place in sysfs alone. -/
def hwidInit (a : HwidAnswers) : ℤ × Bool × List (Entry HwidResource) :=
  if ¬ a.kobject then (-ENOMEM, false, [])
  else if a.group ≠ 0 then (a.group, false, [.take .object, .take .node, .give .node])
  else (0, true, [.take .object, .take .node, .take .group])

/-- `hwid_exit()`. -/
def hwidExit (kobj : Bool) : List (Entry HwidResource) :=
  if kobj then [.give .group, .give .node] else []

/-- A load and, if it succeeds, the unload. -/
def hwidLife (a : HwidAnswers) : List (Entry HwidResource) :=
  let (ret, kobj, entries) := hwidInit a
  if ret ≠ 0 then entries else entries ++ hwidExit kobj

/-- **Many lives** leave the names free, and an object for each kobject that was created. -/
theorem held_hwidLives (lives : List HwidAnswers) (r : HwidResource) :
    held (lives.flatMap hwidLife) r =
      if r = .object then (lives.countP (·.kobject) : ℤ) else 0 := by
  have hlife : ∀ a : HwidAnswers,
      held (hwidLife a) r = if r = .object ∧ a.kobject = true then 1 else 0 := by
    intro a
    rcases a with ⟨_ | _, group⟩
    · simp [hwidLife, hwidInit, ENOMEM]
    · by_cases hgroup : group = 0 <;> cases r <;> simp [hwidLife, hwidInit, hwidExit, hgroup]
  induction lives with
  | nil => simp
  | cons a lives ih =>
    rw [List.flatMap_cons, Ledger.held_append, ih, hlife, List.countP_cons]
    cases r <;> cases a.kobject <;> simp [add_comm]

end XiaomiModules
