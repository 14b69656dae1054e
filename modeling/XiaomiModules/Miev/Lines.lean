import Mathlib.Logic.Function.Basic
import XiaomiModules.Library.Lines
import XiaomiModules.Miev.Stream
import XiaomiModules.Miev.Unambiguous

/-!
# The lines of the stream

The terminator of an event ends in a newline, so that a reader of `/dev/miev` can tell the events
apart: where no string holds a newline, every message is a line. A write that is cut leaves the
beginning of a line in the FIFO, and the next message continues it.

Where moreover no string imitates the end of its own field, a reader gets back, from the bytes
delivered so far, the reports whose lines are complete.

## Main definitions

* `Addition.OneLine`: the strings of a parameter hold no newline
* `Session.messages`: the buffers of the successful writes of a run
* `Report`, `Report.Drafted`: what a client reports, and an event drafted for it
* `readBack`: the reports in the lines of a text

## Main results

* `isLine_message`: a message is a line
* `split_stream_iff`: the lines of the stream are the messages exactly when no write is cut
* `readBack_of_uncut`: what is read back from the bytes delivered
-/

namespace XiaomiModules

open Text Lines

/-- `\n`. -/
def newline : UInt8 := 10

/-- The strings of the parameter hold no newline. -/
def Addition.OneLine : Addition → Prop
  | .int (some key) _ => newline ∉ key.chars
  | .str (some key) (some value) => newline ∉ key.chars ∧ newline ∉ value.chars
  | _ => True

instance : (a : Addition) → Decidable a.OneLine
  | .int (some key) _ => inferInstanceAs (Decidable (newline ∉ key.chars))
  | .str (some key) (some value) =>
    inferInstanceAs (Decidable (newline ∉ key.chars ∧ newline ∉ value.chars))
  | .int none _ => isTrue trivial
  | .str none _ => isTrue trivial
  | .str (some _) none => isTrue trivial

theorem Addition.OneLine.newline_notMem_rendering {a : Addition} (h : a.OneLine) :
    newline ∉ a.rendering := by
  have hparts : newline ∉ ascii "\"" ∧ newline ∉ ascii "\":" ∧ newline ∉ ascii "\":\"" := by
    decide
  have hnumeral := notMem_decimal (b := newline) (by decide)
  cases a with
  | int key value =>
    cases key with
    | none => exact List.not_mem_nil
    | some key =>
      replace h : newline ∉ key.chars := h
      simp [rendering, intParam, hparts, h, hnumeral]
  | str key value =>
    cases key with
    | none => exact List.not_mem_nil
    | some key =>
      cases value with
      | none => exact List.not_mem_nil
      | some value =>
        obtain ⟨hkey, hvalue⟩ := h
        simp [rendering, strParam, hparts, hkey, hvalue]

theorem newline_notMem_paramList {params : List Addition} (h : ∀ a ∈ params, a.OneLine) :
    newline ∉ paramList params := by
  intro hmem
  rcases mem_of_mem_intercalate hmem with hsep | ⟨part, hpart, hnewline⟩
  · exact absurd hsep (by decide)
  · obtain ⟨a, ha, rfl⟩ := List.mem_map.mp hpart
    exact (h a ha).newline_notMem_rendering hnewline

/-- **A message is a line.** -/
theorem isLine_message (eventId : UInt32) (seconds : Int64) {params : List Addition}
    (h : ∀ a ∈ params, a.OneLine) : IsLine newline (message eventId seconds params) := by
  have hterminator : terminator = ascii "\x7d" ++ [newline] := by decide
  have hparts : newline ∉ ascii "EventId " ∧ newline ∉ ascii " -t " ∧
      newline ∉ ascii " -paraList \x7b" ∧ newline ∉ ascii "\x7d" := by decide
  have hnumeral := notMem_decimal (b := newline) (by decide)
  refine ⟨eventHead eventId seconds ++ paramList params ++ ascii "\x7d", ?_, ?_⟩
  · rw [message, hterminator, List.append_assoc]
    simp
  · simp [eventHead, hparts, hnumeral, newline_notMem_paramList h]

namespace Session

variable {s : Session}

/-- The caller is told that the section has written its buffer. -/
def succeeds (s : Session) : LockedSection → Bool
  | .teventWrite event => (cdevTeventWrite s.mievDev event).1 = 0
  | .userWrite buf => 0 < (mievWrite s.mievDev buf).1
  | .read _ => false

/-- The buffers of the successful writes of a run, in order. -/
def messages (s : Session) : List LockedSection → List (List UInt8)
  | [] => []
  | sec :: secs =>
    (if s.succeeds sec then sec.handedOver.toList else []) ++ (s.step sec).messages secs

theorem accepted_step (s : Session) (sec : LockedSection) :
    (s.step sec).accepted =
      s.accepted ++ (if s.succeeds sec then sec.handedOver.toList else []).flatten := by
  have hflatten : ∀ buf : Option (List UInt8), buf.toList.flatten = buf.getD [] := by
    intro buf
    cases buf <;> simp
  cases sec with
  | teventWrite event =>
    simp only [step, succeeds, LockedSection.handedOver, decide_eq_true_eq]
    split_ifs <;> simp [hflatten]
  | userWrite buf =>
    simp only [step, succeeds, LockedSection.handedOver, decide_eq_true_eq]
    split_ifs <;> simp [hflatten]
  | read count => simp [step, succeeds]

/-- What is accepted is the messages, one behind the other. -/
theorem accepted_after (s : Session) (secs : List LockedSection) :
    (Runs.after step s secs).accepted = s.accepted ++ (s.messages secs).flatten := by
  induction secs generalizing s with
  | nil => simp [messages]
  | cons sec secs ih =>
    rw [Runs.after_cons, ih, accepted_step, messages, List.flatten_append, List.append_assoc]

/-- From a FIFO that holds whole buffers, the stream is those and the buffers of the successful
writes exactly where no write is cut. -/
theorem stream_eq_flatten_iff {dev : MievDevice} {before : List (List UInt8)}
    (hcontent : dev.fifo.content = before.flatten) (secs : List LockedSection) :
    (Runs.after step (.start dev) secs).stream = (before ++ (start dev).messages secs).flatten ↔
      Runs.Along step Uncut (.start dev) secs := by
  rw [List.flatten_append, ← hcontent, ← stream_eq_iff rfl (stream_start dev), accepted_after]
  rfl

theorem mem_messages {secs : List LockedSection} {buf : List UInt8} (h : buf ∈ s.messages secs) :
    ∃ sec ∈ secs, sec.handedOver = some buf := by
  induction secs generalizing s with
  | nil => exact absurd h List.not_mem_nil
  | cons sec secs ih =>
    rw [messages, List.mem_append] at h
    rcases h with hfirst | hrest
    · refine ⟨sec, List.mem_cons_self, ?_⟩
      split_ifs at hfirst
      · exact Option.mem_toList.mp hfirst
      · exact absurd hfirst List.not_mem_nil
    · obtain ⟨sec', hsec', hover⟩ := ih hrest
      exact ⟨sec', List.mem_cons_of_mem _ hsec', hover⟩

end Session

/-- **The lines of the stream**: from a FIFO that holds lines, in a run in which every buffer handed
over is a line, the lines of the bytes delivered and of those in the FIFO are the lines found there
and the buffers of the successful writes, with nothing behind them, if and only if no write found
room for a part of its buffer only. -/
theorem split_stream_iff {dev : MievDevice} {before : List (List UInt8)}
    (hcontent : dev.fifo.content = before.flatten) (hbefore : ∀ line ∈ before, IsLine newline line)
    {secs : List LockedSection}
    (hlines : ∀ sec ∈ secs, ∀ buf, sec.handedOver = some buf → IsLine newline buf) :
    split newline (Runs.after Session.step (.start dev) secs).stream =
        (before ++ (Session.start dev).messages secs, []) ↔
      Runs.Along Session.step Session.Uncut (.start dev) secs := by
  have hall : ∀ line ∈ before ++ (Session.start dev).messages secs, IsLine newline line := by
    intro line hline
    rcases List.mem_append.mp hline with hold | hnew
    · exact hbefore line hold
    · obtain ⟨sec, hsec, hover⟩ := Session.mem_messages hnew
      exact hlines sec hsec line hover
  rw [split_eq_iff hall, Session.stream_eq_flatten_iff hcontent]

/-- A user write of one line. -/
def lineBuffer : UserBuffer := ⟨[97, newline], true, false⟩

/-- The lines of the stream, where a user writes a line and a byte of it is read. -/
theorem split_stream_iff_lineBuffer :
    split newline (Runs.after Session.step (.start ⟨BoundedFifo.empty⟩)
        [.userWrite lineBuffer, .read 1]).stream =
      ([] ++ (Session.start ⟨BoundedFifo.empty⟩).messages
        [.userWrite lineBuffer, .read 1], []) ↔
      Runs.Along Session.step Session.Uncut (.start ⟨BoundedFifo.empty⟩)
        [.userWrite lineBuffer, .read 1] := by
  refine split_stream_iff rfl (fun _ hline => absurd hline List.not_mem_nil)
    (List.forall_mem_cons.mpr ⟨?_, fun sec hsec => ?_⟩)
  · rintro buf hover
    obtain rfl : [97, newline] = buf := Option.some.inj hover
    exact ⟨[97], rfl, by decide⟩
  · obtain rfl := List.mem_singleton.mp hsec
    exact fun buf hover => absurd hover.symm (Option.some_ne_none buf)

/-! ## Reports -/

/-- What a client reports: an id, a time and parameters, none of which imitates the end of its field
or holds a newline. -/
structure Report where
  eventId : UInt32
  seconds : Int64
  params : List Addition
  readable : ∀ a ∈ params, a.Admissible ∧ a.Delimited ∧ a.OneLine

instance : Inhabited Report := ⟨⟨0, 0, [], nofun⟩⟩

namespace Report

/-- The message of the report. -/
def text (r : Report) : List UInt8 := message r.eventId r.seconds r.params

theorem isLine_text (r : Report) : IsLine newline r.text :=
  isLine_message _ _ fun a ha => (r.readable a ha).2.2

/-- A report is determined by its message. -/
theorem text_injective : Function.Injective text := by
  intro r r' h
  obtain ⟨hid, hseconds, hparams⟩ :=
    message_inj (fun a ha => ⟨(r.readable a ha).1, (r.readable a ha).2.1⟩)
      (fun a ha => ⟨(r'.readable a ha).1, (r'.readable a ha).2.1⟩) h
  cases r
  cases r'
  simp_all

/-- The event was allocated for the report and has gone through calls that accepted its parameters,
whatever became of other calls, and no print was or will be cut. -/
structure Drafted (r : Report) (event : MisightMievent) : Prop where
  drafted : ∃ fresh calls, cdevTeventAlloc true true r.eventId r.seconds = some fresh ∧
    Runs.Along Draft.step Draft.Uncut (.start fresh) calls ∧
    Runs.after Draft.step (.start fresh) calls = ⟨event, r.params⟩
  room_ne_two : event.room ≠ 2

/-- A write of the event hands over the message of the report, or nothing. -/
theorem Drafted.handedOver {r : Report} {event : MisightMievent} (h : r.Drafted event)
    {buf : List UInt8} (hover : event.handedOver = some buf) : buf = r.text := by
  obtain ⟨fresh, calls, hfresh, huncut, hafter⟩ := h.drafted
  have hsound : (Runs.after Draft.step (.start fresh) calls).Sound r.eventId r.seconds :=
    huncut.invariant (fun _ a hs hc => hs.step a hc) (Draft.Sound.start hfresh)
  rw [hafter] at hsound
  exact hsound.eq_of_handedOver h.room_ne_two hover

end Report

/-- A report with an event drafted for it. -/
structure DraftedReport where
  report : Report
  event : MisightMievent
  drafted : report.Drafted event

/-- A section of a run in which clients write reports and users read. -/
inductive ReportSection
  | write (drafted : DraftedReport)
  | read (count : ℕ)

/-- The locked section. -/
def ReportSection.section : ReportSection → LockedSection
  | .write drafted => .teventWrite drafted.event
  | .read count => .read count

/-- The report that the section hands over. -/
def ReportSection.report : ReportSection → List Report
  | .write drafted => [drafted.report]
  | .read _ => []

theorem ReportSection.eq_text_of_handedOver {sec : ReportSection} {buf : List UInt8}
    (h : sec.section.handedOver = some buf) : sec.report.map Report.text = [buf] := by
  cases sec with
  | write drafted => exact congrArg (fun text => [text]) (drafted.drafted.handedOver h).symm
  | read count => cases h

namespace Session

/-- The reports whose write succeeds in a run, in order. -/
def reports (s : Session) : List ReportSection → List Report
  | [] => []
  | sec :: secs =>
    (if s.succeeds sec.section then sec.report else []) ++ (s.step sec.section).reports secs

/-- A write that succeeds has handed its buffer over. -/
theorem handedOver_ne_none_of_succeeds {s : Session} {sec : LockedSection}
    (h : s.succeeds sec = true) : sec.handedOver ≠ none := by
  intro hnone
  cases sec with
  | teventWrite event =>
    have hret : (event.print terminator).1 ≠ 0 := by
      intro hzero
      simp [LockedSection.handedOver, MisightMievent.handedOver, hzero] at hnone
    simp [succeeds, cdevTeventWrite_of_not_handedOver s.mievDev hnone, hret] at h
  | userWrite buf =>
    have hret := (mievWrite_of_not_handedOver s.mievDev hnone).2
    simp [succeeds, hret.not_gt] at h
  | read count => simp [succeeds] at h

/-- The messages of the run are those of its reports. -/
theorem messages_map_section (s : Session) (secs : List ReportSection) :
    s.messages (secs.map ReportSection.section) = (s.reports secs).map Report.text := by
  induction secs generalizing s with
  | nil => rfl
  | cons sec secs ih =>
    rw [List.map_cons, messages, reports, List.map_append, ih]
    congr 1
    split_ifs with hsucceeds
    · obtain ⟨buf, hover⟩ :=
        Option.ne_none_iff_exists'.mp (handedOver_ne_none_of_succeeds hsucceeds)
      rw [sec.eq_text_of_handedOver hover, hover]
      rfl
    · rfl

end Session

/-- The reports in the lines of a text. -/
noncomputable def readBack (text : List UInt8) : List Report :=
  (split newline text).1.map (Function.invFun Report.text)

theorem map_invFun_text (reports : List Report) :
    (reports.map Report.text).map (Function.invFun Report.text) = reports := by
  rw [List.map_map, (Function.leftInverse_invFun Report.text_injective).comp_eq_id, List.map_id]

/-- **Reading back**: in a run of reports and reads in which no write is cut, from a FIFO that holds
reports, the lines of the stream are the reports found there and those whose write succeeds, in
order, and the bytes delivered so far give back the first of them, up to the one that they leave
incomplete. -/
theorem readBack_of_uncut {dev : MievDevice} {before : List Report}
    (hcontent : dev.fifo.content = (before.map Report.text).flatten) {secs : List ReportSection}
    (huncut : Runs.Along Session.step Session.Uncut (.start dev)
      (secs.map ReportSection.section)) :
    let s := Runs.after Session.step (.start dev) (secs.map ReportSection.section)
    let reports := before ++ (Session.start dev).reports secs
    readBack s.stream = reports ∧ ∃ rest, reports = readBack s.delivered ++ rest ∧
      (split newline s.delivered).2 <+: (rest.map Report.text).flatten ∧
      newline ∉ (split newline s.delivered).2 := by
  intro s reports
  have htext : ∀ line ∈ reports.map Report.text, IsLine newline line := by
    intro line hline
    obtain ⟨r, -, rfl⟩ := List.mem_map.mp hline
    exact r.isLine_text
  -- no write is cut, so the stream is the messages, each of them a line
  have hflatten : s.stream = (reports.map Report.text).flatten := by
    rw [List.map_append, ← Session.messages_map_section]
    exact (Session.stream_eq_flatten_iff hcontent _).mpr huncut
  have hstream : split newline s.stream = (reports.map Report.text, []) :=
    (split_eq_iff htext s.stream).mpr hflatten
  have hdelivered : s.delivered <+: (reports.map Report.text).flatten := by
    rw [← hflatten]
    exact List.prefix_append _ _
  -- a prefix of lines is some of them and a part of the next
  obtain ⟨rest, hrest, hpartial, hmem⟩ := split_of_prefix htext hdelivered
  obtain ⟨first, later, hreports, hfirst, hlater⟩ := List.map_eq_append_iff.mp hrest
  refine ⟨?_, later, ?_, ?_, hmem⟩
  · rw [readBack, hstream, map_invFun_text]
  · rw [readBack, ← hfirst, map_invFun_text, hreports]
  · rwa [hlater]

/-- A report whose parameters fit together has an event drafted for it. -/
theorem Report.exists_drafted (r : Report) (hcnt : r.params.length ≤ mievMaxParams)
    (hsize : (r.params.map fun a => a.rendering.length + 1).sum ≤ 1024) :
    ∃ event, r.Drafted event := by
  obtain ⟨fresh, h⟩ := written_of_fits r.eventId r.seconds (fun a ha => (r.readable a ha).1) hcnt
    hsize
  have haccepted := (accepted_of_success (h.additions.mono fun _ _ hc => hc.1)).1
  have hafter : Runs.after Draft.step (.start fresh) r.params =
      ⟨(Runs.after Draft.step (.start fresh) r.params).event, r.params⟩ :=
    congrArg (Draft.mk _) haccepted
  have hroom := h.fits
  rw [MisightMievent.Fits, length_terminator] at hroom
  exact ⟨_, ⟨fresh, r.params, h.fresh, h.additions.mono fun _ _ hc _ _ => Or.inr hc.2, hafter⟩,
    hroom.ne'⟩

section ThreeReports

/-- The report of four parameters. -/
def fourReport : Report := ⟨7, -1, fourParams, by decide⟩

/-- A report of one integer. -/
def oneReport : Report := ⟨8, 2, [.int (some keyB) 1], by decide⟩

/-- A FIFO that holds a report. -/
def reportedDevice : MievDevice := ⟨⟨([oneReport].map Report.text).flatten, by decide⟩⟩

/-- Two reports with parameters, written to a FIFO that holds a third, and read in parts between
and behind them. -/
theorem readBack_of_uncut_threeReports : ∃ drafted drafted' : DraftedReport,
    (drafted.report = fourReport ∧ drafted'.report = oneReport) ∧
    let secs := [.write drafted, ReportSection.read 9, .write drafted', .read 60]
    let s := Runs.after Session.step (.start reportedDevice) (secs.map ReportSection.section)
    let reports := [oneReport] ++ (Session.start reportedDevice).reports secs
    readBack s.stream = reports ∧ ∃ rest, reports = readBack s.delivered ++ rest ∧
      (split newline s.delivered).2 <+: (rest.map Report.text).flatten ∧
      newline ∉ (split newline s.delivered).2 := by
  obtain ⟨event, hdrafted⟩ := fourReport.exists_drafted (by decide) (by decide)
  obtain ⟨event', hdrafted'⟩ := oneReport.exists_drafted (by decide) (by decide)
  have hfree : 4 * mievMaxEventSize ≤ reportedDevice.fifo.free := by decide
  exact ⟨⟨_, event, hdrafted⟩, ⟨_, event', hdrafted'⟩, ⟨rfl, rfl⟩,
    readBack_of_uncut rfl (along_uncut_of_free hfree)⟩

end ThreeReports

end XiaomiModules
