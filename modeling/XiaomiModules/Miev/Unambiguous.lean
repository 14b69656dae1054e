import XiaomiModules.Miev.Message

/-!
# Reading an event back from its bytes

A message determines the event id, the time and the parameters when no key holds a quote followed
by a colon and no string value a quote followed by a comma. Keys and values are printed as they
are, so without that condition a value can imitate the parameters behind it.

## Main definitions

* `Written`: the additions succeed whole on a fresh event, and the write puts in the bytes
* `Addition.Delimited`: no key and no value imitates the end of its own field

## Main results

* `Written.eq_message`: what is written is the message of the additions
* `written_of_fits`: additions that fit together can be written
* `rendering_append_inj`: a delimited parameter is determined by the text it begins
* `written_inj`: delimited events with equal bytes are equal
-/

namespace XiaomiModules

open Text

/-- The additions all succeed on the fresh event without being cut, and the write succeeds and
puts the bytes into the FIFO of the device. -/
structure Written (eventId : UInt32) (seconds : Int64) (calls : List Addition)
    (bytes : List UInt8) (event : MisightMievent) (dev : MievDevice) : Prop where
  fresh : cdevTeventAlloc true true eventId seconds = some event
  additions : Runs.Along Draft.step
    (fun d a => (a.call d.event).1 = 0 ∧ d.event.Fits (separator d.event ++ a.rendering))
    (.start event) calls
  fits : (Runs.after Draft.step (.start event) calls).event.Fits terminator
  success : (cdevTeventWrite (some dev)
    (Runs.after Draft.step (.start event) calls).event).1 = 0
  content : (cdevTeventWrite (some dev)
    (Runs.after Draft.step (.start event) calls).event).2.2.map (·.fifo.content) =
      some (dev.fifo.content ++ bytes)

/-- The key holds no `":` and the string value no `",`. -/
def Addition.Delimited : Addition → Prop
  | .int (some key) _ => PairFree 34 (· = 58) key.chars
  | .str (some key) (some value) =>
    PairFree 34 (· = 58) key.chars ∧ PairFree 34 (· = 44) value.chars
  | _ => True

instance : (a : Addition) → Decidable a.Delimited
  | .int (some key) _ => inferInstanceAs (Decidable (PairFree 34 (· = 58) key.chars))
  | .str (some key) (some value) =>
    inferInstanceAs (Decidable (PairFree 34 (· = 58) key.chars ∧ PairFree 34 (· = 44) value.chars))
  | .int none _ => isTrue trivial
  | .str none _ => isTrue trivial
  | .str (some _) none => isTrue trivial

/-! ## What is written -/

/-- Where every call returns 0, all are accepted, and their arguments are admissible. -/
theorem accepted_of_success {d : Draft} {calls : List Addition}
    (h : Runs.Along Draft.step (fun d a => (a.call d.event).1 = 0) d calls) :
    (Runs.after Draft.step d calls).accepted = d.accepted ++ calls ∧
      ∀ a ∈ calls, a.Admissible := by
  induction calls generalizing d with
  | nil => exact ⟨(List.append_nil _).symm, fun _ ha => absurd ha List.not_mem_nil⟩
  | cons a calls ih =>
    obtain ⟨hret, hcalls⟩ := h
    obtain ⟨haccepted, hadm⟩ := ih hcalls
    have hstep : (d.step a).accepted = d.accepted ++ [a] := by simp [Draft.step, hret]
    refine ⟨?_, List.forall_mem_cons.mpr ⟨?_, hadm⟩⟩
    · rw [Runs.after_cons, haccepted, hstep, List.append_assoc, List.singleton_append]
    · by_contra hnot
      exact (Addition.call_of_not_admissible hnot d.event).1 hret

/-- A write of a sound draft with room for the terminator. -/
theorem cdevTeventWrite_of_fits {eventId : UInt32} {seconds : Int64} {d : Draft}
    (h : d.Sound eventId seconds) (hfits : d.event.Fits terminator) (dev : MievDevice) :
    ((cdevTeventWrite (some dev) d.event).1 = 0 ↔
        (message eventId seconds d.accepted).length ≤ dev.fifo.free) ∧
      (cdevTeventWrite (some dev) d.event).2.2.map (·.fifo.content) =
        some (dev.fifo.content ++
          (message eventId seconds d.accepted).take dev.fifo.free) := by
  rw [cdevTeventWrite_some dev (h.handedOver_eq hfits)]
  constructor
  · -- the write returns 0 exactly when the FIFO took the whole message
    show (if _ then (0 : ℤ) else -ENOSPC) = 0 ↔ _
    split_ifs with hfree
    · exact iff_of_true rfl hfree
    · exact iff_of_false (by decide) hfree
  · rfl

/-- **What is written** is the message of the additions. -/
theorem Written.eq_message {eventId : UInt32} {seconds : Int64} {calls : List Addition}
    {bytes : List UInt8} {event : MisightMievent} {dev : MievDevice}
    (h : Written eventId seconds calls bytes event dev) :
    bytes = message eventId seconds calls ∧ ∀ a ∈ calls, a.Admissible := by
  obtain ⟨haccepted, hadm⟩ := accepted_of_success (h.additions.mono fun _ _ hc => hc.1)
  have hsound : (Runs.after Draft.step (.start event) calls).Sound eventId seconds :=
    h.additions.invariant (I := Draft.Sound eventId seconds)
      (fun _ a hs hc => hs.step a fun _ _ => Or.inr hc.2) (.start h.fresh)
  obtain ⟨hsuccess, hcontent⟩ := cdevTeventWrite_of_fits hsound h.fits dev
  refine ⟨?_, hadm⟩
  -- the write succeeded, so the bytes it appended are the whole message
  have hfree := hsuccess.mp h.success
  have heq := h.content.symm.trans hcontent
  rw [List.take_of_length_le hfree, haccepted] at heq
  exact List.append_cancel_left (Option.some.inj heq)

/-- Additions that fit together can be written to an empty device. -/
theorem written_of_fits (eventId : UInt32) (seconds : Int64) {calls : List Addition}
    (hadm : ∀ a ∈ calls, a.Admissible) (hcnt : calls.length ≤ mievMaxParams)
    (hsize : (calls.map fun a => a.rendering.length + 1).sum ≤ 1024) :
    ∃ event, Written eventId seconds calls (message eventId seconds calls) event
      ⟨BoundedFifo.empty⟩ := by
  obtain ⟨event, hfresh⟩ := exists_cdevTeventAlloc eventId seconds
  have hstart := Draft.Sound.start hfresh
  have hhead := length_eventHead_le eventId seconds
  have hmax : mievMaxEventSize = 2048 := rfl
  have hused : (Draft.start event).event.usedSize = (eventHead eventId seconds).length :=
    hstart.usedSize_eq
  have hcount : (Draft.start event).accepted.length + calls.length ≤ mievMaxParams := by
    simpa [Draft.start] using hcnt
  obtain ⟨halong, haccepted, hsize'⟩ := hstart.along_of_fits calls hadm hcount (by omega)
  have hsound : (Runs.after Draft.step (.start event) calls).Sound eventId seconds :=
    halong.invariant (I := Draft.Sound eventId seconds) (fun _ a hs hc => hs.step a hc.2.1) hstart
  -- the additions leave room for the terminator
  have hfits : (Runs.after Draft.step (.start event) calls).event.Fits terminator := by
    rw [MisightMievent.Fits, MisightMievent.room, length_terminator]
    omega
  have hnil : (Draft.start event).accepted ++ calls = calls := List.nil_append _
  obtain ⟨hsuccess, hcontent⟩ := cdevTeventWrite_of_fits hsound hfits ⟨BoundedFifo.empty⟩
  -- an event is no longer than its buffer, which the FIFO holds
  have hfree : (message eventId seconds calls).length ≤ mievFifoSize := by
    have hlen := (MisightMievent.length_of_handedOver (hsound.handedOver_eq hfits)).2
    rw [haccepted, hnil] at hlen
    exact hlen.trans (by decide)
  rw [haccepted, hnil] at hsuccess hcontent
  refine ⟨event, hfresh, halong.mono fun _ _ hc => ⟨hc.1, hc.2.2⟩, hfits, hsuccess.mpr hfree, ?_⟩
  rw [hcontent]
  exact congrArg some (congrArg _ (List.take_of_length_le hfree))

/-! ## Reading parameters back -/

/-- What follows a parameter in a message: the further parameters and the terminator. -/
def tailText (calls : List Addition) : List UInt8 :=
  (calls.map fun a => ascii "," ++ a.rendering).flatten ++ terminator

theorem ascii_comma : ascii "," = [44] := by decide

theorem tailText_cons (a : Addition) (calls : List Addition) :
    tailText (a :: calls) = 44 :: (a.rendering ++ tailText calls) := by
  simp [tailText, ascii_comma]

theorem tailText_nil : tailText [] = [125, 10] := by decide

theorem paramList_cons_append (a : Addition) (calls : List Addition) :
    paramList (a :: calls) ++ terminator = a.rendering ++ tailText calls := by
  rw [paramList, List.map_cons, intercalate_cons, List.map_map, List.append_assoc]
  rfl

theorem length_tailText (calls : List Addition) : 2 ≤ (tailText calls).length := by
  rw [tailText, List.length_append]
  exact Nat.le_add_left _ _

/-- What follows a parameter stops a numeral. -/
theorem stops_tailText (calls : List Addition) : Stops IsNumeral (tailText calls) := by
  cases calls with
  | nil =>
    rw [tailText_nil]
    exact stops_cons (by decide)
  | cons a calls =>
    rw [tailText_cons]
    exact stops_cons (by decide)

/-- What follows a parameter begins with a comma, or ends the text. -/
theorem closed_tailText (calls rest : List Addition) :
    Closed (· = 44) (tailText calls) ∨ (tailText calls).length ≤ (tailText rest).length := by
  cases calls with
  | nil => exact Or.inr (length_tailText rest)
  | cons a calls => exact Or.inl ⟨44, _, tailText_cons a calls, rfl⟩

/-- A parameter after its key. -/
def Addition.valueText : Addition → List UInt8
  | .int (some _) value => decimal value.toInt
  | .str (some _) (some value) => 34 :: (value.chars ++ [34])
  | _ => []

/-- The key of a parameter; a null key reads as the empty one. -/
def Addition.keyChars : Addition → List UInt8
  | .int (some key) _ => key.chars
  | .str (some key) _ => key.chars
  | _ => []

theorem ascii_quotes :
    ascii "\"" = [34] ∧ ascii "\":" = [34, 58] ∧ ascii "\":\"" = [34, 58, 34] := by decide

theorem rendering_append {a : Addition} (h : a.Admissible) (rest : List UInt8) :
    a.rendering ++ rest = 34 :: (a.keyChars ++ 34 :: 58 :: (a.valueText ++ rest)) := by
  obtain ⟨hquote, hint, hstr⟩ := ascii_quotes
  cases a with
  | int key value =>
    cases key with
    | none => exact h.elim
    | some key =>
      simp [Addition.rendering, intParam, Addition.keyChars, Addition.valueText, hquote, hint]
  | str key value =>
    cases key with
    | none => exact h.elim
    | some key =>
      cases value with
      | none => exact h.elim
      | some value =>
        simp [Addition.rendering, strParam, Addition.keyChars, Addition.valueText, hquote, hstr]

theorem Addition.Delimited.pairFree_key {a : Addition} (h : a.Delimited) (hadm : a.Admissible) :
    PairFree 34 (· = 58) a.keyChars := by
  cases a with
  | int key value =>
    cases key with
    | none => exact hadm.elim
    | some key => exact h
  | str key value =>
    cases key with
    | none => exact hadm.elim
    | some key =>
      cases value with
      | none => exact hadm.elim
      | some value => exact h.1

/-- A string value begins with a quote, and a numeral does not. -/
theorem decimal_append_ne_quote (z : ℤ) (rest text : List UInt8) :
    decimal z ++ rest ≠ 34 :: text := by
  intro h
  cases hz : decimal z with
  | nil => exact decimal_ne_nil z hz
  | cons b l =>
    rw [hz, List.cons_append] at h
    have hb : IsNumeral b := isNumeral_of_mem_decimal (hz ▸ List.mem_cons_self)
    rw [(List.cons.inj h).1] at hb
    exact absurd hb (by decide)

/-- **A delimited parameter** is determined by the text it begins. -/
theorem rendering_append_inj {a b : Addition} {as bs : List Addition} (ha : a.Admissible)
    (hb : b.Admissible) (hda : a.Delimited) (hdb : b.Delimited)
    (h : a.rendering ++ tailText as = b.rendering ++ tailText bs) :
    a = b ∧ tailText as = tailText bs := by
  rw [rendering_append ha, rendering_append hb] at h
  -- the key ends at the first quote followed by a colon
  obtain ⟨hkey, hvalue⟩ := append_pair_inj (by decide) (hda.pairFree_key ha)
    (hdb.pairFree_key hb) (.inl ⟨58, _, rfl, rfl⟩) (.inl ⟨58, _, rfl, rfl⟩) (List.cons.inj h).2
  replace hvalue := (List.cons.inj hvalue).2
  -- what is left tells an integer from a string by its first byte
  rcases a with ⟨_ | key, value⟩ | ⟨_ | key, _ | value⟩ <;>
    rcases b with ⟨_ | key', value'⟩ | ⟨_ | key', _ | value'⟩ <;>
    first
    | exact ha.elim
    | exact hb.elim
    | skip
  · -- two integers: the numeral ends where the tail begins
    obtain ⟨hz, htail⟩ := append_inj_of_stops (fun _ => isNumeral_of_mem_decimal)
      (fun _ => isNumeral_of_mem_decimal) (stops_tailText as) (stops_tailText bs) hvalue
    have hint : value = value' := Int64.toInt_inj.mp (decimal_injective hz)
    have hchars : key = key' := CString.ext hkey
    exact ⟨by rw [hint, hchars], htail⟩
  · exact absurd hvalue (decimal_append_ne_quote _ _ _)
  · exact absurd hvalue.symm (decimal_append_ne_quote _ _ _)
  · -- two strings: the value ends at the quote that the tail closes
    simp only [Addition.valueText, List.cons_append, List.append_assoc, List.nil_append,
      List.cons.injEq, true_and] at hvalue
    obtain ⟨hstr, htail⟩ := append_pair_inj (by decide) hda.2 hdb.2 (closed_tailText as bs)
      (closed_tailText bs as) hvalue
    have hchars : key = key' := CString.ext hkey
    have hvalues : value = value' := CString.ext hstr
    exact ⟨by rw [hchars, hvalues], htail⟩

theorem tailText_inj {as bs : List Addition} (ha : ∀ a ∈ as, a.Admissible ∧ a.Delimited)
    (hb : ∀ b ∈ bs, b.Admissible ∧ b.Delimited) (h : tailText as = tailText bs) : as = bs := by
  induction as generalizing bs with
  | nil =>
    -- the terminator begins with a brace, a further parameter with a comma
    cases bs with
    | nil => rfl
    | cons b bs =>
      rw [tailText_nil, tailText_cons] at h
      exact absurd (List.cons.inj h).1 (by decide)
  | cons a as ih =>
    cases bs with
    | nil =>
      rw [tailText_nil, tailText_cons] at h
      exact absurd (List.cons.inj h).1 (by decide)
    | cons b bs =>
      rw [List.forall_mem_cons] at ha hb
      rw [tailText_cons, tailText_cons] at h
      obtain ⟨hab, htail⟩ :=
        rendering_append_inj ha.1.1 hb.1.1 ha.1.2 hb.1.2 (List.cons.inj h).2
      rw [hab, ih ha.2 hb.2 htail]

theorem paramList_cons_ne_nil {a : Addition} (ha : a.Admissible) (as : List Addition) :
    paramList (a :: as) ++ terminator ≠ paramList [] ++ terminator := by
  intro h
  rw [paramList_cons_append, rendering_append ha] at h
  exact absurd (List.cons.inj h).1 (by decide)

theorem paramList_inj {as bs : List Addition} (ha : ∀ a ∈ as, a.Admissible ∧ a.Delimited)
    (hb : ∀ b ∈ bs, b.Admissible ∧ b.Delimited)
    (h : paramList as ++ terminator = paramList bs ++ terminator) : as = bs := by
  cases as with
  | nil =>
    cases bs with
    | nil => rfl
    | cons b bs => exact absurd h.symm (paramList_cons_ne_nil (hb b List.mem_cons_self).1 bs)
  | cons a as =>
    cases bs with
    | nil => exact absurd h (paramList_cons_ne_nil (ha a List.mem_cons_self).1 as)
    | cons b bs =>
      -- with a comma in front the list is the tail of a message
      refine tailText_inj ha hb ?_
      rw [tailText_cons, tailText_cons, ← paramList_cons_append, ← paramList_cons_append, h]

/-- **Equal messages** of delimited parameters have equal ids, times and parameters. -/
theorem message_inj {id₁ id₂ : UInt32} {seconds₁ seconds₂ : Int64} {as bs : List Addition}
    (ha : ∀ a ∈ as, a.Admissible ∧ a.Delimited) (hb : ∀ b ∈ bs, b.Admissible ∧ b.Delimited)
    (h : message id₁ seconds₁ as = message id₂ seconds₂ bs) :
    id₁ = id₂ ∧ seconds₁ = seconds₂ ∧ as = bs := by
  have hspace : ∀ rest, Stops IsNumeral (ascii " -t " ++ rest) ∧
      Stops IsNumeral (ascii " -paraList \x7b" ++ rest) :=
    fun rest => ⟨stops_cons (by decide), stops_cons (by decide)⟩
  simp only [message, eventHead, List.append_assoc] at h
  -- the id ends at the space before the time, the time at the space before the list
  obtain ⟨hid, h⟩ := append_inj_of_stops (fun _ => isNumeral_of_mem_decimal)
    (fun _ => isNumeral_of_mem_decimal) (hspace _).1 (hspace _).1 (List.append_cancel_left h)
  obtain ⟨hsec, h⟩ := append_inj_of_stops (fun _ => isNumeral_of_mem_decimal)
    (fun _ => isNumeral_of_mem_decimal) (hspace _).2 (hspace _).2 (List.append_cancel_left h)
  refine ⟨?_, Int64.toInt_inj.mp (decimal_injective hsec),
    paramList_inj ha hb (List.append_cancel_left h)⟩
  exact UInt32.toNat_inj.mp (Int.ofNat_inj.mp (decimal_injective hid))

/-- **Unambiguous events**: two events written whole, whose keys and string values imitate no end
of their own field, have equal ids, times and parameters when the bytes written are equal. -/
theorem written_inj {id₁ id₂ : UInt32} {seconds₁ seconds₂ : Int64} {calls₁ calls₂ : List Addition}
    {bytes : List UInt8} {event₁ event₂ : MisightMievent} {dev₁ dev₂ : MievDevice}
    (h₁ : Written id₁ seconds₁ calls₁ bytes event₁ dev₁)
    (h₂ : Written id₂ seconds₂ calls₂ bytes event₂ dev₂)
    (hd₁ : ∀ a ∈ calls₁, a.Delimited) (hd₂ : ∀ a ∈ calls₂, a.Delimited) :
    id₁ = id₂ ∧ seconds₁ = seconds₂ ∧ calls₁ = calls₂ := by
  obtain ⟨hbytes₁, hadm₁⟩ := h₁.eq_message
  obtain ⟨hbytes₂, hadm₂⟩ := h₂.eq_message
  refine message_inj (fun a ha => ⟨hadm₁ a ha, hd₁ a ha⟩) (fun a ha => ⟨hadm₂ a ha, hd₂ a ha⟩) ?_
  rw [← hbytes₁, ← hbytes₂]

/-! ## Imitated parameters -/

section Imitation

/-- The key `a`. -/
def keyA : CString := ⟨[97], by decide⟩

/-- The key `b`. -/
def keyB : CString := ⟨[98], by decide⟩

/-- The value `x`. -/
def valueX : CString := ⟨[120], by decide⟩

/-- The value `x","b":"x`. -/
def valueImitating : CString := ⟨[120, 34, 44, 34, 98, 34, 58, 34, 120], by decide⟩

/-- The value `x,"y"`, which holds commas and quotes and imitates no end. -/
def valueQuoting : CString := ⟨[120, 44, 34, 121, 34], by decide⟩

/-- Two integers and two strings. -/
def fourParams : List Addition :=
  [.int (some keyA) (-5), .str (some keyB) (some valueX), .str (some keyA) (some valueQuoting),
    .int (some keyB) 7]

/-- The reading for two events with four parameters each. -/
theorem written_inj_fourParams :
    ∃ event dev, Written 7 (-1) fourParams (message 7 (-1) fourParams) event dev ∧
      ((7 : UInt32) = 7 ∧ (-1 : Int64) = -1 ∧ fourParams = fourParams) := by
  have hadm : ∀ a ∈ fourParams, a.Admissible := by decide
  have hdelimited : ∀ a ∈ fourParams, a.Delimited := by decide
  obtain ⟨event, h⟩ := written_of_fits 7 (-1) hadm (by decide) (by decide)
  exact ⟨event, _, h, written_inj h h hdelimited hdelimited⟩

/-- The key `a":1,"b`. -/
def keyImitating : CString := ⟨[97, 34, 58, 49, 44, 34, 98], by decide⟩

/-- Short additions with one message are written as the same bytes. -/
theorem exists_written_of_message_eq (as bs : List Addition) (ha : ∀ a ∈ as, a.Admissible)
    (hb : ∀ b ∈ bs, b.Admissible) (hcnt : as.length ≤ mievMaxParams ∧ bs.length ≤ mievMaxParams)
    (hsize : (as.map fun a => a.rendering.length + 1).sum ≤ 1024 ∧
      (bs.map fun b => b.rendering.length + 1).sum ≤ 1024)
    (h : message 1 0 as = message 1 0 bs) :
    ∃ bytes event₁ event₂ dev₁ dev₂,
      Written 1 0 as bytes event₁ dev₁ ∧ Written 1 0 bs bytes event₂ dev₂ := by
  obtain ⟨event₁, h₁⟩ := written_of_fits 1 0 ha hcnt.1 hsize.1
  obtain ⟨event₂, h₂⟩ := written_of_fits 1 0 hb hcnt.2 hsize.2
  exact ⟨_, event₁, event₂, _, _, h₁, h ▸ h₂⟩

/-- One value, or one key, that imitates a second parameter is written as the two parameters
are. -/
theorem written_imitation :
    (∃ bytes event₁ event₂ dev₁ dev₂,
      Written 1 0 [.str (some keyA) (some valueX), .str (some keyB) (some valueX)] bytes
        event₁ dev₁ ∧
      Written 1 0 [.str (some keyA) (some valueImitating)] bytes event₂ dev₂ ∧
      [Addition.str (some keyA) (some valueX), .str (some keyB) (some valueX)] ≠
        [.str (some keyA) (some valueImitating)]) ∧
    ∃ bytes event₁ event₂ dev₁ dev₂,
      Written 1 0 [.int (some keyA) 1, .int (some keyB) 1] bytes event₁ dev₁ ∧
      Written 1 0 [.int (some keyImitating) 1] bytes event₂ dev₂ ∧
      [Addition.int (some keyA) 1, .int (some keyB) 1] ≠ [.int (some keyImitating) 1] := by
  constructor
  · obtain ⟨bytes, event₁, event₂, dev₁, dev₂, h₁, h₂⟩ := exists_written_of_message_eq
      [.str (some keyA) (some valueX), .str (some keyB) (some valueX)]
      [.str (some keyA) (some valueImitating)]
      (by decide) (by decide) (by decide) (by decide) (by decide)
    exact ⟨bytes, event₁, event₂, dev₁, dev₂, h₁, h₂, by decide⟩
  · obtain ⟨bytes, event₁, event₂, dev₁, dev₂, h₁, h₂⟩ := exists_written_of_message_eq
      [.int (some keyA) 1, .int (some keyB) 1] [.int (some keyImitating) 1]
      (by decide) (by decide) (by decide) (by decide) (by decide)
    exact ⟨bytes, event₁, event₂, dev₁, dev₂, h₁, h₂, by decide⟩

end Imitation

end XiaomiModules
