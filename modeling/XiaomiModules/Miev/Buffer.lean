import XiaomiModules.Miev.Message

/-!
# The buffer of an event

The three calls of a client print into one buffer. Each computes the room from the end of the text,
so each relies on the calls before it to have left the end inside the buffer; and the text stays a
string only if every print ends in a NUL and stores none. An event carries the sizes as facts;
`struct misight_mievent` has words instead, and here the calls are also run on the words, recording
what they pass to `scnprintf` and to `write_buf_inner`.

## Main definitions

* `MisightMievent.Wellformed`: the text is the string in the buffer, and the parameters are counted
* `Words.Event`, `MisightMievent.words`: the bare fields, and those of an event
* `Words.ClientCall`, `Words.History`: the calls of a client, and the event with the additions that
  returned 0

## Main results

* `MisightMievent.Wellformed.print`: a print keeps the text a string
* `Words.addition_words`, `Words.cdevTeventWrite_words`: the words of an event behave as the event
* `Words.buffer_sound`: every run of calls keeps the buffer and its sizes sound
-/

namespace XiaomiModules

open Text

/-! ## The text as a string -/

theorem nul_notMem_eventHead (eventId : UInt32) (seconds : Int64) :
    0 ∉ eventHead eventId seconds := by
  have hparts : 0 ∉ ascii "EventId " ∧ 0 ∉ ascii " -t " ∧ 0 ∉ ascii " -paraList \x7b" := by decide
  simp only [eventHead, List.mem_append, not_or]
  exact ⟨⟨⟨⟨hparts.1, zero_notMem_decimal _⟩, hparts.2.1⟩, zero_notMem_decimal _⟩, hparts.2.2⟩

theorem nul_notMem_separator (event : MisightMievent) : 0 ∉ separator event := by
  unfold separator
  split_ifs
  · decide
  · exact List.not_mem_nil

theorem nul_notMem_terminator : 0 ∉ terminator := by decide

/-- What an addition prints holds no NUL, since its strings hold none. -/
theorem Addition.nul_notMem_rendering (a : Addition) : 0 ∉ a.rendering := by
  have hparts : 0 ∉ ascii "\"" ∧ 0 ∉ ascii "\":" ∧ 0 ∉ ascii "\":\"" := by decide
  cases a with
  | int key value =>
    cases key with
    | none => exact List.not_mem_nil
    | some key =>
      simp [rendering, intParam, hparts, key.nul_notMem, zero_notMem_decimal]
  | str key value =>
    cases key with
    | none => exact List.not_mem_nil
    | some key =>
      cases value with
      | none => exact List.not_mem_nil
      | some value =>
        simp [rendering, strParam, hparts, key.nul_notMem, value.nul_notMem]

namespace MisightMievent

/-- The text is not empty, holds no NUL and is followed by one, and there are at most
`MIEV_MAX_PARAMS` parameters. -/
structure Wellformed (event : MisightMievent) : Prop where
  usedSize_pos : 0 < event.usedSize
  terminated : event.Terminated
  nul_notMem : 0 ∉ event.text
  paraCnt_le : event.paraCnt ≤ mievMaxParams

variable {event : MisightMievent}

/-- A print of a text without NUL keeps the text a string. -/
theorem Wellformed.print (h : event.Wellformed) {new : List UInt8} (hnew : 0 ∉ new) :
    (event.print new).2.Wellformed where
  usedSize_pos := by
    rw [usedSize_print]
    exact Nat.lt_add_right _ h.usedSize_pos
  terminated := event.terminated_print new
  nul_notMem := by
    rw [text_print, List.mem_append, not_or]
    exact ⟨h.nul_notMem, fun hmem => hnew (List.mem_of_mem_take hmem)⟩
  paraCnt_le := by
    rw [paraCnt_print]
    exact h.paraCnt_le

/-- An addition keeps the event well-formed, and counts itself when it returns 0. -/
theorem Wellformed.call (h : event.Wellformed) (a : Addition) :
    (a.call event).2.Wellformed ∧
      (a.call event).2.paraCnt = event.paraCnt + if (a.call event).1 = 0 then 1 else 0 := by
  rcases a.call_cases h.terminated with ⟨hret, hevent⟩ | ⟨⟨-, hcnt, -⟩, hcall⟩
  · rw [hevent, if_neg hret]
    exact ⟨h, rfl⟩
  · have hnew : 0 ∉ separator event ++ a.rendering := by
      rw [List.mem_append, not_or]
      exact ⟨nul_notMem_separator event, a.nul_notMem_rendering⟩
    have hcount : (event.added (separator event ++ a.rendering)).paraCnt = event.paraCnt + 1 := rfl
    rw [hcall, if_pos rfl]
    obtain ⟨hpos, hnul, hmem, -⟩ := h.print hnew
    exact ⟨⟨hpos, hnul, hmem, hcount.trans_le hcnt⟩, hcount⟩

/-- A write keeps the event well-formed, and its count. -/
theorem Wellformed.write (h : event.Wellformed) (mievDev : Option MievDevice) :
    (cdevTeventWrite mievDev event).2.1.Wellformed ∧
      (cdevTeventWrite mievDev event).2.1.paraCnt = event.paraCnt := by
  rw [event_cdevTeventWrite]
  exact ⟨h.print nul_notMem_terminator, event.paraCnt_print terminator⟩

/-- A fresh event is well-formed. -/
theorem wellformed_cdevTeventAlloc {eventAllocated msgAllocated : Bool} {eventId : UInt32}
    {seconds : Int64}
    (h : cdevTeventAlloc eventAllocated msgAllocated eventId seconds = some event) :
    event.Wellformed := by
  obtain ⟨htext, hnul, hcnt⟩ := cdevTeventAlloc_some h
  refine ⟨?_, hnul, ?_, hcnt.trans_le (Nat.zero_le _)⟩
  · rw [← event.length_text, htext]
    have hopening : 0 < (ascii "EventId ").length := by decide
    simp only [eventHead, List.length_append]
    omega
  · rw [htext]
    exact nul_notMem_eventHead eventId seconds

end MisightMievent

/-! ## The calls on the words -/

namespace Words

/-- `struct misight_mievent`, as the source declares it. -/
structure Event where
  eventId : UInt32
  paraCnt : Int32
  usedSize : UInt64
  msg : List UInt8
deriving DecidableEq

/-- What a client's call leads to: its return value, the event, the sizes it passed to `scnprintf`
and the lengths it passed to `write_buf_inner`. -/
structure Printed where
  ret : ℤ
  event : Event
  sizes : List UInt64
  lens : List UInt64
deriving DecidableEq

/-- `cdev_tevent_alloc(event_id)`, with the outcomes of its two allocations and the time. -/
def cdevTeventAlloc (eventAllocated msgAllocated : Bool) (eventId : UInt32) (seconds : Int64) :
    Option Event :=
  if ¬ eventAllocated then none
  else if ¬ msgAllocated then none
  else
    let out := scnprintf (List.replicate mievMaxEventSize 0) 0 mievMaxEventSize
      (eventHead eventId seconds)
    if out.1 ≤ 0 ∨ mievMaxEventSize ≤ out.1 then none
    else some ⟨eventId, 0, UInt64.ofNat out.1, out.2⟩

namespace Event

/-- The size passed to a print: `MIEV_MAX_EVENT_SIZE - used_size`. -/
def room (event : Event) : UInt64 := UInt64.ofNat mievMaxEventSize - event.usedSize

/-- The print the three writers of the text share. -/
def print (event : Event) (text : List UInt8) : Printed :=
  let out := scnprintf event.msg event.usedSize.toNat event.room.toNat text
  if out.1 ≤ 0 ∨ event.room.toNat ≤ out.1 then
    ⟨-ENOSPC, { event with msg := out.2 }, [event.room], []⟩
  else
    ⟨0, { event with msg := out.2, usedSize := event.usedSize + UInt64.ofNat out.1 },
      [event.room], []⟩

/-- What the two additions do once their checks passed. -/
def addText (event : Event) (text : List UInt8) : Printed :=
  let out := event.print text
  if out.ret ≠ 0 then out
  else { out with event := { out.event with paraCnt := out.event.paraCnt + 1 } }

/-- The separator a parameter is printed with. -/
def separator (event : Event) : List UInt8 := if event.paraCnt ≠ 0 then ascii "," else []

end Event

/-- `cdev_tevent_add_int(event, key, value)`. -/
def cdevTeventAddInt (event : Event) (key : Option CString) (value : Int64) : Printed :=
  match key with
  | none => ⟨-EINVAL, event, [], []⟩
  | some key =>
    if event.paraCnt ≥ Int32.ofNat mievMaxParams then ⟨-ENOSPC, event, [], []⟩
    else if key.chars.length ≥ mievMaxParamName then ⟨-EINVAL, event, [], []⟩
    else event.addText (event.separator ++ intParam key value)

/-- `cdev_tevent_add_str(event, key, value)`. -/
def cdevTeventAddStr (event : Event) (key value : Option CString) : Printed :=
  match key, value with
  | some key, some value =>
    if event.paraCnt ≥ Int32.ofNat mievMaxParams then ⟨-ENOSPC, event, [], []⟩
    else if key.chars.length ≥ mievMaxParamName ∨ value.chars.length ≥ mievMaxParamString then
      ⟨-EINVAL, event, [], []⟩
    else event.addText (event.separator ++ strParam key value)
  | _, _ => ⟨-EINVAL, event, [], []⟩

/-- `cdev_tevent_write(event)`, on a device in any state. -/
def cdevTeventWrite (mievDev : Option MievDevice) (event : Event) :
    Printed × Option MievDevice :=
  let out := event.print terminator
  if out.ret ≠ 0 then (out, mievDev)
  else
    let (ret, mievDev) := writeBufInner mievDev (some out.event.msg) out.event.usedSize.toNat
    ({ out with ret, lens := [out.event.usedSize] }, mievDev)

/-- A call of a client. -/
inductive ClientCall
  | add (a : Addition)
  | write (mievDev : Option MievDevice)

/-- The call on an allocated event. -/
def ClientCall.run (event : Event) : ClientCall → Printed
  | .add (.int key value) => cdevTeventAddInt event key value
  | .add (.str key value) => cdevTeventAddStr event key value
  | .write mievDev => (cdevTeventWrite mievDev event).1

/-- An event, with the number of additions that returned 0. -/
structure History where
  event : Event
  accepted : ℕ

/-- One call. -/
def History.step (h : History) (c : ClientCall) : History where
  event := (c.run h.event).event
  accepted :=
    match c with
    | .add a => h.accepted + if ((ClientCall.add a).run h.event).ret = 0 then 1 else 0
    | .write _ => h.accepted

/-- The used size is within the buffer, and is the length of the string in it. -/
structure Event.Sound (event : Event) : Prop where
  usedSize_pos : 1 ≤ event.usedSize.toNat
  usedSize_le : event.usedSize.toNat ≤ 2047
  length_msg : event.msg.length = 2048
  terminated : event.msg[event.usedSize.toNat]? = some 0
  first : ∀ i < event.usedSize.toNat, event.msg[i]? ≠ some 0

/-- The sizes passed on are within the buffer, and a call that fails before `write_buf_inner`
changes nothing. -/
structure Printed.Sound (event : Event) (out : Printed) : Prop where
  sizes : ∀ size ∈ out.sizes,
    0 < size.toNat ∧ event.usedSize.toNat + size.toNat = event.msg.length
  lens : ∀ len ∈ out.lens, len.toNat ≤ out.event.msg.length
  unchanged : out.ret ≠ 0 → out.lens = [] → out.event = event

end Words

/-! ## The words of an event -/

/-- The bare fields of an event. -/
def MisightMievent.words (event : MisightMievent) : Words.Event where
  eventId := event.eventId
  paraCnt := Int32.ofNat event.paraCnt
  usedSize := UInt64.ofNat event.usedSize
  msg := event.msg

namespace Words

variable {event : MisightMievent}

theorem toNat_usedSize_words (event : MisightMievent) :
    event.words.usedSize.toNat = event.usedSize := by
  refine UInt64.toNat_ofNat_of_lt' (event.usedSize_lt.trans ?_)
  decide

theorem toNat_room_words (event : MisightMievent) : event.words.room.toNat = event.room := by
  have hroom : event.words.room = UInt64.ofNat event.room :=
    (UInt64.ofNat_sub event.usedSize_lt.le).symm
  rw [hroom]
  refine UInt64.toNat_ofNat_of_lt' ((Nat.sub_le _ _).trans_lt ?_)
  decide

theorem toInt_paraCnt_words (h : event.paraCnt ≤ mievMaxParams) :
    event.words.paraCnt.toInt = event.paraCnt :=
  Int32.toInt_ofNat_of_lt (h.trans_lt (by decide))

theorem paraCnt_words_ge_iff (h : event.paraCnt ≤ mievMaxParams) :
    event.words.paraCnt ≥ Int32.ofNat mievMaxParams ↔ event.paraCnt ≥ mievMaxParams := by
  have hmax : (Int32.ofNat mievMaxParams).toInt = mievMaxParams := by decide
  rw [ge_iff_le, Int32.le_iff_toInt_le, hmax, toInt_paraCnt_words h, Int.ofNat_le]

theorem separator_words (h : event.paraCnt ≤ mievMaxParams) :
    event.words.separator = separator event := by
  refine if_congr (not_congr ?_) rfl rfl
  rw [← Int32.toInt_inj, toInt_paraCnt_words h]
  exact Int.natCast_eq_zero

/-- A print into the words is a print into the event. -/
theorem print_words (event : MisightMievent) (text : List UInt8) :
    event.words.print text =
      ⟨(event.print text).1, (event.print text).2.words, [event.words.room], []⟩ := by
  have hmsg : event.words.msg = event.msg := rfl
  unfold Event.print MisightMievent.print
  dsimp only
  rw [toNat_usedSize_words, toNat_room_words, hmsg]
  split_ifs
  · rfl
  · simp only [MisightMievent.words, UInt64.ofNat_add]

theorem addText_words (event : MisightMievent) (text : List UInt8) :
    event.words.addText text =
      ⟨(event.addText text).1, (event.addText text).2.words, [event.words.room], []⟩ := by
  unfold Event.addText MisightMievent.addText
  rw [print_words]
  dsimp only
  split_ifs with hret
  · rfl
  · rw [not_not.mp hret]
    simp only [MisightMievent.words, Int32.ofNat_add]
    rfl

/-- The outcome on the words of an event is the one given, and the size of every print was the
room. -/
structure Printed.Matches (event : MisightMievent) (out : Printed)
    (expected : ℤ × MisightMievent) : Prop where
  ret_eq : out.ret = expected.1
  event_eq : out.event = expected.2.words
  sizes_eq : ∀ size ∈ out.sizes, size = event.words.room

theorem matches_refused (event : MisightMievent) (ret : ℤ) :
    (⟨ret, event.words, [], []⟩ : Printed).Matches event (ret, event) :=
  ⟨rfl, rfl, fun _ h => absurd h List.not_mem_nil⟩

theorem matches_addText (event : MisightMievent) (text : List UInt8) :
    (event.words.addText text).Matches event (event.addText text) := by
  rw [addText_words]
  exact ⟨rfl, rfl, List.forall_mem_singleton.mpr rfl⟩

/-- **An addition on the words** is the addition to the event. -/
theorem addition_words (hcnt : event.paraCnt ≤ mievMaxParams) (a : Addition) :
    ((ClientCall.add a).run event.words).Matches event (a.call event) ∧
      ((ClientCall.add a).run event.words).lens = [] := by
  cases a with
  | int key value =>
    simp only [ClientCall.run, Addition.call]
    unfold cdevTeventAddInt XiaomiModules.cdevTeventAddInt
    rw [separator_words hcnt]
    cases key with
    | none => exact ⟨matches_refused event _, rfl⟩
    | some key =>
      -- the tests of the count and of the key, and the print
      dsimp only
      simp only [paraCnt_words_ge_iff hcnt]
      split_ifs
      · exact ⟨matches_refused event _, rfl⟩
      · exact ⟨matches_refused event _, rfl⟩
      · exact ⟨matches_addText event _, by rw [addText_words]⟩
  | str key value =>
    simp only [ClientCall.run, Addition.call]
    unfold cdevTeventAddStr XiaomiModules.cdevTeventAddStr
    rw [separator_words hcnt]
    cases key with
    | none => exact ⟨matches_refused event _, rfl⟩
    | some key =>
      cases value with
      | none => exact ⟨matches_refused event _, rfl⟩
      | some value =>
        -- the same with a test of the key and the value
        dsimp only
        simp only [paraCnt_words_ge_iff hcnt]
        split_ifs
        · exact ⟨matches_refused event _, rfl⟩
        · exact ⟨matches_refused event _, rfl⟩
        · exact ⟨matches_addText event _, by rw [addText_words]⟩

/-- **A write of the words** is the write of the event, and passes the used size on. -/
theorem cdevTeventWrite_words (mievDev : Option MievDevice) (event : MisightMievent) :
    let out := XiaomiModules.cdevTeventWrite mievDev event
    (cdevTeventWrite mievDev event.words).1.Matches event (out.1, out.2.1) ∧
      (cdevTeventWrite mievDev event.words).2 = out.2.2 ∧
      (cdevTeventWrite mievDev event.words).1.lens =
        if (event.print terminator).1 ≠ 0 then []
        else [(event.print terminator).2.words.usedSize] := by
  have hmsg : ∀ event : MisightMievent, event.words.msg = event.msg := fun _ => rfl
  unfold cdevTeventWrite XiaomiModules.cdevTeventWrite
  simp only [print_words, toNat_usedSize_words, hmsg]
  split_ifs with hret
  · exact ⟨⟨rfl, rfl, List.forall_mem_singleton.mpr rfl⟩, rfl, rfl⟩
  · exact ⟨⟨rfl, rfl, List.forall_mem_singleton.mpr rfl⟩, rfl, rfl⟩

theorem cdevTeventAlloc_words (eventAllocated msgAllocated : Bool) (eventId : UInt32)
    (seconds : Int64) :
    cdevTeventAlloc eventAllocated msgAllocated eventId seconds =
      (XiaomiModules.cdevTeventAlloc eventAllocated msgAllocated eventId seconds).map
        MisightMievent.words := by
  unfold cdevTeventAlloc XiaomiModules.cdevTeventAlloc
  dsimp only
  split_ifs <;> rfl

/-! ## Runs of calls -/

/-- The words of a well-formed event are sound. -/
theorem sound_words (h : event.Wellformed) : event.words.Sound := by
  have hused := toNat_usedSize_words event
  refine ⟨?_, ?_, event.length_msg, ?_, ?_⟩
  · rw [hused]
    exact h.usedSize_pos
  · rw [hused]
    exact Nat.le_of_lt_succ event.usedSize_lt
  · rw [hused]
    exact h.terminated
  · intro i hi hnul
    rw [hused] at hi
    refine h.nul_notMem (List.mem_of_getElem? (i := i) ?_)
    rw [MisightMievent.text, List.getElem?_take_of_lt hi]
    exact hnul

/-- A size that is the room of the event is within the buffer. -/
theorem room_words_pos_and_add (event : MisightMievent) :
    0 < event.words.room.toNat ∧
      event.words.usedSize.toNat + event.words.room.toNat = event.words.msg.length := by
  rw [toNat_room_words, toNat_usedSize_words]
  exact ⟨event.room_pos, event.usedSize_add_room⟩

/-- **One call**: on the words of a well-formed event every call passes sound sizes on. -/
theorem sound_run (h : event.Wellformed) (c : ClientCall) :
    (c.run event.words).Sound event.words := by
  cases c with
  | add a =>
    obtain ⟨⟨hret, hevent, hsizes⟩, hlens⟩ := addition_words h.paraCnt_le a
    refine ⟨fun size hmem => hsizes size hmem ▸ room_words_pos_and_add event, ?_, ?_⟩
    · rw [hlens]
      exact fun _ hmem => absurd hmem List.not_mem_nil
    · intro hfail _
      rcases a.call_cases h.terminated with ⟨-, hsame⟩ | ⟨-, hcall⟩
      · rw [hevent, hsame]
      · rw [hret, hcall] at hfail
        exact absurd rfl hfail
  | write mievDev =>
    obtain ⟨⟨-, hevent, hsizes⟩, -, hlens⟩ := cdevTeventWrite_words mievDev event
    rw [ClientCall.run]
    refine ⟨fun size hmem => hsizes size hmem ▸ room_words_pos_and_add event, ?_, ?_⟩
    · intro len hmem
      rw [hlens] at hmem
      rw [hevent, event_cdevTeventWrite]
      split_ifs at hmem with hret
      · exact absurd hmem List.not_mem_nil
      · rw [List.mem_singleton.mp hmem, toNat_usedSize_words]
        exact (event.print terminator).2.usedSize_lt.le.trans_eq (MisightMievent.length_msg _).symm
    · intro _ hnone
      rw [hlens] at hnone
      -- nothing was passed on, so the print failed, which it does only in a room of one byte
      have hfull : event.room = 1 := by
        by_contra hroom
        have hprint := MisightMievent.print_fst event terminator_ne_nil
        rw [if_neg hroom] at hprint
        rw [if_neg (not_not.mpr hprint)] at hnone
        exact absurd hnone (List.cons_ne_nil _ _)
      rw [hevent, event_cdevTeventWrite,
        MisightMievent.print_of_full h.terminated hfull]

/-- The words are those of a well-formed event whose parameters are the additions accepted. -/
def History.Tracks (h : History) : Prop :=
  ∃ event : MisightMievent, event.Wellformed ∧ h.event = event.words ∧ event.paraCnt = h.accepted

theorem History.Tracks.step {h : History} (htracks : h.Tracks) (c : ClientCall) :
    (h.step c).Tracks := by
  obtain ⟨event, hwell, hevent, hcnt⟩ := htracks
  cases c with
  | add a =>
    obtain ⟨⟨hret, hevent', -⟩, -⟩ := addition_words hwell.paraCnt_le a
    obtain ⟨hwell', hcnt'⟩ := hwell.call a
    refine ⟨_, hwell', ?_, ?_⟩
    · rw [History.step, hevent, hevent']
    · rw [History.step, hevent, hret, hcnt', hcnt]
  | write mievDev =>
    obtain ⟨⟨-, hevent', -⟩, -⟩ := cdevTeventWrite_words mievDev event
    obtain ⟨hwell', hcnt'⟩ := hwell.write mievDev
    refine ⟨_, hwell', ?_, ?_⟩
    · rw [History.step, hevent, ClientCall.run, hevent']
    · rw [History.step, hcnt', hcnt]

/-- **The buffer**: after every run of additions and writes on a fresh event, the used size is the
length of the string in the buffer and within it, the parameters are the additions that returned 0,
and every further call passes sound sizes on. -/
theorem buffer_sound {eventAllocated msgAllocated : Bool} {eventId : UInt32} {seconds : Int64}
    {event : Event}
    (h : cdevTeventAlloc eventAllocated msgAllocated eventId seconds = some event)
    (calls : List ClientCall) :
    let history := Runs.after History.step ⟨event, 0⟩ calls
    history.event.Sound ∧
      (0 ≤ history.event.paraCnt.toInt ∧ history.event.paraCnt.toInt ≤ 64 ∧
        history.event.paraCnt.toInt = history.accepted) ∧
      ∀ c : ClientCall, (c.run history.event).Sound history.event := by
  intro history
  obtain ⟨fresh, halloc, rfl⟩ := Option.map_eq_some_iff.mp
    ((cdevTeventAlloc_words eventAllocated msgAllocated eventId seconds).symm.trans h)
  have hfresh := MisightMievent.wellformed_cdevTeventAlloc halloc
  have hstart : History.Tracks ⟨fresh.words, 0⟩ :=
    ⟨fresh, hfresh, rfl, (cdevTeventAlloc_some halloc).2.2⟩
  obtain ⟨event, hwell, hevent, hcnt⟩ :=
    Runs.after_invariant (fun _ c htracks => htracks.step c) hstart calls
  have hcount := toInt_paraCnt_words hwell.paraCnt_le
  have hmax : (event.paraCnt : ℤ) ≤ 64 := Int.ofNat_le.mpr hwell.paraCnt_le
  rw [show history.event = event.words from hevent, hcount]
  refine ⟨sound_words hwell, ⟨Int.natCast_nonneg _, hmax, congrArg _ hcnt⟩, ?_⟩
  exact fun c => sound_run hwell c

section MixedClient

/-- The mixed additions of a client that writes twice between them, first without a device, and once
more behind the parameter that was cut. -/
def mixedClient : List ClientCall :=
  (mixedCalls.take 3).map .add ++ [.write none, .write (some ⟨BoundedFifo.empty⟩)] ++
    (mixedCalls.drop 3).map .add ++ [.write (some ⟨BoundedFifo.empty⟩)]

/-- The result for the mixed client: six of its additions returned 0, the last of them cut. -/
theorem buffer_sound_mixedClient :
    ∃ event, cdevTeventAlloc true true 7 (-1) = some event ∧
      let history := Runs.after History.step ⟨event, 0⟩ mixedClient
      (history.accepted = 6 ∧ history.event.usedSize = 2047) ∧
      history.event.Sound ∧
        (0 ≤ history.event.paraCnt.toInt ∧ history.event.paraCnt.toInt ≤ 64 ∧
          history.event.paraCnt.toInt = history.accepted) ∧
        ∀ c : ClientCall, (c.run history.event).Sound history.event := by
  obtain ⟨event, halloc⟩ := exists_cdevTeventAlloc 7 (-1)
  have h : cdevTeventAlloc true true 7 (-1) = some event.words := by
    rw [cdevTeventAlloc_words, halloc]
    rfl
  have hrun : (cdevTeventAlloc true true 7 (-1)).map (fun event =>
      ((Runs.after History.step ⟨event, 0⟩ mixedClient).accepted,
        (Runs.after History.step ⟨event, 0⟩ mixedClient).event.usedSize)) = some (6, 2047) := by
    decide +kernel
  rw [h] at hrun
  exact ⟨event.words, h, Prod.mk.inj (Option.some.inj hrun), buffer_sound h mixedClient⟩

end MixedClient

end Words

end XiaomiModules
