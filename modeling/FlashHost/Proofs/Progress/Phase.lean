import FlashHost.Event

/-!
# Phases of a report

The reports of an execution as a state machine: steps are opened and closed one at a time, a
payload is sent inside a step, and the last report says whether everything was done. What the
phases allow is spelled out for the reports themselves below.
-/

set_option autoImplicit false

namespace FlashHost

namespace Event

def progress? : Event → Option Progress
  | .progress report => some report
  | _ => none

def taken : Event → Nat
  | .written data (.ok count) => if count = data.size then count else 0
  | _ => 0

end Event

def reports (events : List Event) : List Progress :=
  events.filterMap Event.progress?

def taken : List Event → Nat
  | [] => 0
  | event :: events => event.taken + taken events

inductive Phase where
  | outside
  /-- A step is open, and its payload was sent or not. -/
  | inside (sent : Bool)
  /-- The payload of the step is being sent. Of its bytes so many were taken, and so many were
  reported last. -/
  | sending (size taken shown : Nat)
  | finished
  | failed

namespace Phase

/-- The phase after a report, if there may be such a report. A failure may be reported outside
of steps, but inside a transfer only before the last byte was taken. -/
def report : Phase → Progress → Option Phase
  | .outside, .begin _ => some (.inside false)
  | .outside, .info _ => some .outside
  | .outside, .display _ _ => some .outside
  | .outside, .notice _ => some .outside
  | .outside, .failed _ => some .failed
  | .outside, .finished => some .finished
  | .inside sent, .info _ => some (.inside sent)
  | .inside _, .okay => some .outside
  | .inside _, .failed _ => some .failed
  | .inside false, .transferStarted size => some (.sending size 0 0)
  | .sending size taken shown, .transferProgress sent =>
    if shown < sent ∧ sent = taken ∧ sent ≤ size then some (.sending size taken sent) else none
  | .sending size taken shown, .transferDone =>
    if taken = size ∧ shown = size then some (.inside true) else none
  | .sending size taken _, .failed _ => if taken < size then some .failed else none
  | _, _ => none

def pass (count : Nat) : Phase → Phase
  | .sending size taken shown => .sending size (taken + count) shown
  | phase => phase

def next (phase : Phase) (event : Event) : Option Phase :=
  match event.progress? with
  | some progress => phase.report progress
  | none => some (phase.pass event.taken)

def follow (phase : Phase) (events : List Event) : Option Phase :=
  events.foldlM next phase

def ending (success : Bool) : Phase :=
  if success then .finished else .failed

def success? : Phase → Option Bool
  | .finished => some true
  | .failed => some false
  | _ => none

end Phase

def Progress.success? : Progress → Option Bool
  | .finished => some true
  | .failed _ => some false
  | _ => none

@[simp] theorem reports_nil : reports [] = [] := rfl

@[simp] theorem reports_append (earlier later : List Event) :
    reports (earlier ++ later) = reports earlier ++ reports later :=
  List.filterMap_append

theorem reports_cons_report {event : Event} {progress : Progress} {events : List Event}
    (shown : event.progress? = some progress) :
    reports (event :: events) = progress :: reports events :=
  List.filterMap_cons_some shown

theorem reports_cons_silent {event : Event} {events : List Event}
    (silent : event.progress? = none) : reports (event :: events) = reports events :=
  List.filterMap_cons_none silent

theorem Event.eq_of_progress? {event : Event} {report : Progress}
    (told : event.progress? = some report) : event = .progress report := by
  cases event <;> cases told
  rfl

theorem reports_split {events : List Event} {earlier later : List Progress} {report : Progress}
    (parts : reports events = earlier ++ report :: later) :
    ∃ front back, events = front ++ .progress report :: back ∧ reports back = later := by
  obtain ⟨front, rest, rfl, -, cut⟩ := List.filterMap_eq_append_iff.mp parts
  obtain ⟨silent, event, back, rfl, -, told, behind⟩ := List.filterMap_eq_cons_iff.mp cut
  obtain rfl := Event.eq_of_progress? told
  exact ⟨front ++ silent, back, by simp, behind⟩

@[simp] theorem taken_nil : taken [] = 0 := rfl

@[simp] theorem taken_cons (event : Event) (events : List Event) :
    taken (event :: events) = event.taken + taken events := rfl

@[simp] theorem taken_append (earlier later : List Event) :
    taken (earlier ++ later) = taken earlier + taken later := by
  induction earlier with
  | nil => simp
  | cons event earlier ih => simp [ih, Nat.add_assoc]

/-- What happens on the endpoints below a call does not show in the reports. -/
theorem transferred_silent (transfers : List Transfer) :
    reports (transfers.map .transferred) = [] ∧ taken (transfers.map .transferred) = 0 := by
  induction transfers with
  | nil => exact ⟨rfl, rfl⟩
  | cons transfer transfers ih =>
      refine ⟨(reports_cons_silent rfl).trans ih.1, ?_⟩
      rw [List.map_cons, taken_cons, ih.2]
      rfl

namespace Phase

@[simp] theorem pass_zero (phase : Phase) : phase.pass 0 = phase := by
  cases phase <;> rfl

@[simp] theorem pass_pass (phase : Phase) (count more : Nat) :
    (phase.pass count).pass more = phase.pass (count + more) := by
  cases phase <;> simp [pass, Nat.add_assoc]

@[simp] theorem success?_pass (phase : Phase) (count : Nat) :
    (phase.pass count).success? = phase.success? := by
  cases phase <;> rfl

@[simp] theorem success?_ending (success : Bool) : (ending success).success? = some success := by
  cases success <;> rfl

@[simp] theorem follow_nil (phase : Phase) : phase.follow [] = some phase := rfl

theorem follow_append (phase : Phase) (earlier later : List Event) :
    phase.follow (earlier ++ later) = (phase.follow earlier).bind fun middle =>
      middle.follow later :=
  List.foldlM_append

theorem follow_report {phase : Phase} {event : Event} {progress : Progress}
    (shown : event.progress? = some progress) (events : List Event) :
    phase.follow (event :: events) = (phase.report progress).bind fun middle =>
      middle.follow events := by
  rw [follow, List.foldlM_cons, next, shown]
  rfl

theorem follow_pass {phase : Phase} {event : Event} (silent : event.progress? = none)
    (events : List Event) :
    phase.follow (event :: events) = (phase.pass event.taken).follow events := by
  rw [follow, List.foldlM_cons, next, silent]
  rfl

theorem follow_silent {events : List Event} (silent : reports events = []) (phase : Phase) :
    phase.follow events = some (phase.pass (taken events)) := by
  induction events generalizing phase with
  | nil => simp
  | cons event events ih =>
      have own : event.progress? = none := by
        cases shown : event.progress? with
        | none => rfl
        | some progress => rw [reports_cons_report shown] at silent; cases silent
      rw [reports_cons_silent own] at silent
      rw [follow_pass own, ih silent, pass_pass, taken_cons]

end Phase

@[simp] theorem Progress.success?_eq_true_iff {report : Progress} :
    report.success? = some true ↔ report = .finished := by
  cases report <;> simp [Progress.success?]

@[simp] theorem Progress.success?_eq_false_iff {report : Progress} :
    report.success? = some false ↔ ∃ reason, report = .failed reason := by
  cases report <;> simp [Progress.success?]

/-- The progress of a transfer: it always gets further, and never beyond the size. -/
def Rising (size : Nat) (shown : List Nat) : Prop :=
  (0 :: shown).Pairwise (· < ·) ∧ ∀ count ∈ shown, count ≤ size

/-- A step is closed, with only information before its end. -/
inductive Ends : List Progress → Prop where
  | info {text later} : Ends later → Ends (.info text :: later)
  | okay {later} : Ends (.okay :: later)
  | failed {reason later} : Ends (.failed reason :: later)

/-- A step is closed, with only information and at most one transfer before its end, and no
information inside of the transfer. -/
inductive Closed : List Progress → Prop where
  | info {text later} : Closed later → Closed (.info text :: later)
  | plain {later} : Ends later → Closed later
  | sent {size counts later} :
      Rising size counts → counts.getLastD 0 = size → Ends later →
      Closed (.transferStarted size :: (counts.map .transferProgress ++ .transferDone :: later))
  | cutShort {size counts reason later} :
      Rising size counts →
      Closed (.transferStarted size ::
        (counts.map .transferProgress ++ .failed reason :: later))

/-- The rest of the events of a transfer, of which so many bytes were taken already. It is
reported as done just if every byte was taken; otherwise a failure is reported. -/
inductive Delivered (size already : Nat) : List Event → Prop where
  | done {front later} :
      (∀ report ∈ reports front, ∃ count, report = .transferProgress count) →
      already + taken front = size →
      Delivered size already (front ++ .progress .transferDone :: later)
  | cutShort {front reason later} :
      (∀ report ∈ reports front, ∃ count, report = .transferProgress count) →
      already + taken front < size →
      Delivered size already (front ++ .progress (.failed reason) :: later)

theorem Delivered.cons {size already : Nat} {event : Event} {events : List Event}
    (inner : ∀ report ∈ reports [event], ∃ count, report = .transferProgress count)
    (rest : Delivered size (already + event.taken) events) :
    Delivered size already (event :: events) := by
  have both {front : List Event}
      (others : ∀ report ∈ reports front, ∃ count, report = .transferProgress count) :
      ∀ report ∈ reports (event :: front), ∃ count, report = .transferProgress count := by
    rw [← List.singleton_append, reports_append]
    exact List.forall_mem_append.mpr ⟨inner, others⟩
  cases rest with
  | done others whole =>
      rw [← List.cons_append]
      exact .done (both others) (by rw [taken_cons]; omega)
  | cutShort others less =>
      rw [← List.cons_append]
      exact .cutShort (both others) (by rw [taken_cons]; omega)

namespace Phase

variable {last : Phase} {events : List Event} {success : Bool}

theorem follow_split {phase : Phase} {front back : List Event} {report : Progress}
    (followed : phase.follow (front ++ .progress report :: back) = some last) :
    ∃ before after : Phase,
      before.report report = some after ∧ after.follow back = some last := by
  rw [follow_append] at followed
  obtain ⟨before, -, rest⟩ := Option.bind_eq_some_iff.mp followed
  rw [follow_report rfl] at rest
  obtain ⟨after, may, others⟩ := Option.bind_eq_some_iff.mp rest
  exact ⟨before, after, may, others⟩

theorem report_begin {phase next : Phase} {description : String}
    (may : phase.report (.begin description) = some next) : next = .inside false := by
  cases phase <;> cases may
  rfl

theorem report_transferStarted {phase next : Phase} {size : Nat}
    (may : phase.report (.transferStarted size) = some next) : next = .sending size 0 0 := by
  cases phase with
  | inside sent => cases sent <;> cases may; rfl
  | _ => cases may

theorem follow_cons {phase : Phase} {event : Event}
    (followed : phase.follow (event :: events) = some last) :
    (event.progress? = none ∧ (phase.pass event.taken).follow events = some last) ∨
      ∃ report after, event = .progress report ∧ phase.report report = some after ∧
        after.follow events = some last := by
  cases told : event.progress? with
  | none =>
      rw [follow_pass told] at followed
      exact .inl ⟨rfl, followed⟩
  | some report =>
      rw [follow_report told] at followed
      obtain ⟨after, may, rest⟩ := Option.bind_eq_some_iff.mp followed
      exact .inr ⟨report, after, Event.eq_of_progress? told, may, rest⟩

/-- One report says how an execution ended, and no report follows it. -/
theorem success?_of_report {phase next : Phase} {report : Progress}
    (may : phase.report report = some next) :
    phase.success? = none ∧ report.success? = next.success? := by
  unfold Phase.report at may
  split at may
  all_goals try split at may
  all_goals cases may
  all_goals exact ⟨rfl, rfl⟩

private theorem reports_of_ended {phase : Phase} (ended : phase.success? = some success)
    (followed : phase.follow events = some last) :
    reports events = [] ∧ last.success? = some success := by
  induction events generalizing phase with
  | nil =>
      cases followed
      exact ⟨rfl, ended⟩
  | cons event events ih =>
      obtain ⟨silent, rest⟩ | ⟨report, after, rfl, may, rest⟩ := follow_cons followed
      · rw [reports_cons_silent silent]
        exact ih (by rwa [success?_pass]) rest
      · cases (success?_of_report may).1.symm.trans ended

theorem last_report {phase : Phase} (followed : phase.follow events = some last)
    (live : phase.success? = none) (ended : last.success? = some success) :
    ∃ earlier report, reports events = earlier ++ [report] ∧ report.success? = some success ∧
      ∀ other ∈ earlier, other.success? = none := by
  induction events generalizing phase with
  | nil => cases followed; cases live.symm.trans ended
  | cons event events ih =>
      obtain ⟨silent, rest⟩ | ⟨report, after, rfl, may, rest⟩ := follow_cons followed
      · rw [reports_cons_silent silent]
        exact ih rest (by rwa [success?_pass])
      · have same := (success?_of_report may).2
        rw [reports_cons_report rfl]
        cases ending : after.success? with
        | none =>
            obtain ⟨earlier, final, parts, told, others⟩ := ih rest ending
            refine ⟨report :: earlier, final, by rw [parts]; rfl, told, ?_⟩
            exact List.forall_mem_cons.mpr ⟨same.trans ending, others⟩
        | some verdict =>
            -- The first report with a verdict is the last report of all.
            obtain ⟨none, kept⟩ := reports_of_ended ending rest
            refine ⟨[], report, by rw [none]; rfl, ?_, by simp⟩
            rw [same, ending, ← kept, ended]

/-- Once its payload was sent, a step has only information before its end. -/
theorem ends_of_follow (followed : (inside true).follow events = some last)
    (ended : last.success? = some success) : Ends (reports events) := by
  induction events with
  | nil => cases followed; cases ended
  | cons event events ih =>
      obtain ⟨silent, rest⟩ | ⟨report, after, rfl, may, rest⟩ := follow_cons followed
      · rw [reports_cons_silent silent]
        exact ih rest
      · rw [reports_cons_report rfl]
        cases report with
        | info text =>
            cases may
            exact .info (ih rest)
        | okay => exact .okay
        | failed reason => exact .failed
        | _ => cases may

/-- A transfer gets further with each report, up to its end. -/
theorem rising_of_follow {size taken shown : Nat}
    (followed : (sending size taken shown).follow events = some last)
    (ended : last.success? = some success) :
    ∃ counts, (shown :: counts).Pairwise (· < ·) ∧ (∀ count ∈ counts, count ≤ size) ∧
      ((∃ reason later,
          reports events = counts.map .transferProgress ++ .failed reason :: later) ∨
        ∃ later, counts.getLastD shown = size ∧ (inside true).follow later = some last ∧
          reports events = counts.map .transferProgress ++ .transferDone :: reports later) := by
  induction events generalizing taken shown with
  | nil => cases followed; cases ended
  | cons event events ih =>
      obtain ⟨silent, rest⟩ | ⟨report, after, rfl, may, rest⟩ := follow_cons followed
      · rw [reports_cons_silent silent]
        exact ih rest
      · rw [reports_cons_report rfl]
        cases report with
        | transferProgress sent =>
            obtain ⟨⟨above, -, within⟩, ⟨⟩⟩ := Option.ite_none_right_eq_some.mp may
            obtain ⟨counts, rising, bounded, ending⟩ := ih rest
            refine ⟨sent :: counts, ?_, List.forall_mem_cons.mpr ⟨within, bounded⟩, ?_⟩
            · refine List.pairwise_cons.mpr ⟨List.forall_mem_cons.mpr ⟨above, ?_⟩, rising⟩
              intro count member
              exact Nat.lt_trans above (List.rel_of_pairwise_cons rising member)
            · obtain ⟨reason, later, parts⟩ | ⟨later, complete, continued, parts⟩ := ending
              · exact .inl ⟨reason, later, by rw [parts]; rfl⟩
              · refine .inr ⟨later, ?_, continued, by rw [parts]; rfl⟩
                rwa [List.getLastD_cons]
        | transferDone =>
            obtain ⟨⟨-, complete⟩, ⟨⟩⟩ := Option.ite_none_right_eq_some.mp may
            exact ⟨[], by simp, by simp, .inr ⟨events, complete, rest, rfl⟩⟩
        | failed reason => exact ⟨[], by simp, by simp, .inl ⟨reason, _, rfl⟩⟩
        | _ => cases may

theorem closed_of_follow (followed : (inside false).follow events = some last)
    (ended : last.success? = some success) : Closed (reports events) := by
  induction events with
  | nil => cases followed; cases ended
  | cons event events ih =>
      obtain ⟨silent, rest⟩ | ⟨report, after, rfl, may, rest⟩ := follow_cons followed
      · rw [reports_cons_silent silent]
        exact ih rest
      · rw [reports_cons_report rfl]
        cases report with
        | info text =>
            cases may
            exact .info (ih rest)
        | okay => exact .plain .okay
        | failed reason => exact .plain .failed
        | transferStarted size =>
            cases may
            obtain ⟨counts, rising, bounded, ending⟩ := rising_of_follow rest ended
            obtain ⟨reason, later, parts⟩ | ⟨later, complete, continued, parts⟩ := ending
            · rw [parts]
              exact .cutShort ⟨rising, bounded⟩
            · rw [parts]
              exact .sent ⟨rising, bounded⟩ complete (ends_of_follow continued ended)
        | _ => cases may

theorem delivered_of_follow {size already shown : Nat}
    (followed : (sending size already shown).follow events = some last)
    (ended : last.success? = some success) : Delivered size already events := by
  induction events generalizing already shown with
  | nil => cases followed; cases ended
  | cons event events ih =>
      obtain ⟨silent, rest⟩ | ⟨report, after, rfl, may, rest⟩ := follow_cons followed
      · exact (ih rest).cons (by simp [reports_cons_silent silent])
      · cases report with
        | transferProgress sent =>
            obtain ⟨-, ⟨⟩⟩ := Option.ite_none_right_eq_some.mp may
            exact (ih rest).cons (by simp [reports, Event.progress?])
        | transferDone =>
            obtain ⟨⟨whole, -⟩, -⟩ := Option.ite_none_right_eq_some.mp may
            exact @Delivered.done _ _ [] _ (by simp) (by simpa using whole)
        | failed reason =>
            obtain ⟨less, -⟩ := Option.ite_none_right_eq_some.mp may
            exact @Delivered.cutShort _ _ [] _ _ (by simp) (by simpa using less)
        | _ => cases may

end Phase

end FlashHost
