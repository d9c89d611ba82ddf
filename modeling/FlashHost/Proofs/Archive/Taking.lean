import FlashHost.Proofs.Archive.Capacity
import FlashHost.Proofs.Outcome

/-!
# Taking the content of a member

The content of a member comes as a stream, of which no more bytes are taken than its declared
size has a capacity for. That is more than the declared size, so that a content of this size is
always taken to its end, and a failure that only shows there is seen.
-/

set_option autoImplicit false

namespace FlashHost.Archive

namespace Stream

def Starts (stream : Stream) (bytes : ByteArray) : Prop :=
  ∀ position (within : position < bytes.size), stream.next position = .byte bytes[position]

def Yields (stream : Stream) (data : ByteArray) : Prop :=
  stream.Starts data ∧ stream.next data.size = .finished

inductive Stops (stream : Stream) (limit : Nat) (bytes : ByteArray) : Stop → Prop where
  | full : bytes.size = limit → Stops stream limit bytes .full
  | finished :
      bytes.size < limit → stream.next bytes.size = .finished → Stops stream limit bytes .finished
  | failed {reason} :
      bytes.size < limit → stream.next bytes.size = .failed reason →
      Stops stream limit bytes (.failed reason)

variable {stream other : Stream} {bytes taken : ByteArray} {stop : Stop} {limit room : Nat}

theorem Starts.push (starts : stream.Starts bytes) {value : UInt8}
    (next : stream.next bytes.size = .byte value) : stream.Starts (bytes.push value) := by
  intro position within
  change _ = Next.byte (bytes.data.push value)[position]
  rw [ByteArray.size_push] at within
  obtain earlier | rfl := Nat.lt_or_eq_of_le (Nat.le_of_lt_succ within)
  · rw [Array.getElem_push_lt earlier]
    exact starts position earlier
  · exact next.trans (congrArg Next.byte Array.getElem_push_eq.symm)

private theorem starts_take (starts : stream.Starts taken) (room : Nat) :
    stream.Starts (stream.take room taken).1 ∧
      stream.Stops (taken.size + room) (stream.take room taken).1 (stream.take room taken).2 := by
  induction room generalizing taken with
  | zero => exact ⟨starts, .full rfl⟩
  | succ room ih =>
      have short : taken.size < taken.size + (room + 1) := by omega
      unfold take
      cases next : stream.next taken.size with
      | byte value =>
          obtain ⟨begun, stops⟩ := ih (starts.push next)
          rw [ByteArray.size_push, Nat.add_right_comm] at stops
          exact ⟨begun, stops⟩
      | finished => exact ⟨starts, .finished short next⟩
      | failed reason => exact ⟨starts, .failed short next⟩

private theorem Starts.eq_of_size_eq (starts : stream.Starts bytes) (others : stream.Starts taken)
    (same : bytes.size = taken.size) : bytes = taken := by
  refine ByteArray.ext_getElem same fun position within beyond => ?_
  have equal : Next.byte bytes[position] = Next.byte taken[position] :=
    (starts position within).symm.trans (others position beyond)
  exact Next.byte.inj equal

theorem Stops.le_limit (stops : stream.Stops limit bytes stop) : bytes.size ≤ limit := by
  cases stops with
  | full reached => exact Nat.le_of_eq reached
  | finished short _ => exact Nat.le_of_lt short
  | failed short _ => exact Nat.le_of_lt short

/-- A stream that goes on after some bytes does not stop there. -/
theorem Stops.size_le (stops : stream.Stops limit bytes stop) (others : stream.Starts taken)
    (within : taken.size ≤ limit) : taken.size ≤ bytes.size := by
  refine Nat.le_of_not_lt fun longer => ?_
  have goes := others bytes.size longer
  cases stops with
  | full reached => omega
  | finished _ next => cases next.symm.trans goes
  | failed _ next => cases next.symm.trans goes

theorem Stops.eq {another : Stop} (stops : stream.Stops limit bytes stop)
    (others : stream.Stops limit bytes another) : stop = another := by
  cases stops with
  | full reached => cases others <;> first | rfl | omega
  | finished short next =>
      cases others with
      | full reached => omega
      | finished _ _ => rfl
      | failed _ other => cases next.symm.trans other
  | failed short next =>
      cases others with
      | full reached => omega
      | finished _ other => cases next.symm.trans other
      | failed _ other =>
          cases next.symm.trans other
          rfl

/-- What is taken of a stream up to a limit. -/
theorem take_eq_iff :
    stream.take limit .empty = (bytes, stop) ↔
      stream.Starts bytes ∧ stream.Stops limit bytes stop := by
  have none : stream.Starts .empty := nofun
  obtain ⟨starts, stops⟩ := starts_take none limit
  have total : ByteArray.empty.size + limit = limit := Nat.zero_add limit
  rw [total] at stops
  constructor
  · intro took
    rw [took] at starts stops
    exact ⟨starts, stops⟩
  · rintro ⟨others, stopsToo⟩
    have least := stops.size_le others stopsToo.le_limit
    have most := stopsToo.size_le starts stops.le_limit
    obtain same := starts.eq_of_size_eq others (by omega)
    rw [same] at stops
    exact Prod.ext same (stops.eq stopsToo)

private theorem take_congr
    (same : ∀ position < taken.size + room, stream.next position = other.next position) :
    stream.take room taken = other.take room taken := by
  induction room generalizing taken with
  | zero => rfl
  | succ room ih =>
      unfold take
      rw [same taken.size (by omega)]
      cases other.next taken.size with
      | byte value =>
          refine ih fun position before => same position ?_
          rw [ByteArray.size_push] at before
          omega
      | finished => rfl
      | failed reason => rfl

end Stream

private theorem lt_capacity {size : Nat} (room : capacity size ≤ addressSpace) : size < capacity size := by
  have within : capacity size < sizeLimit := Nat.lt_of_le_of_lt room (by decide)
  rw [capacity_eq_min] at within
  exact lt_capacity_iff.mpr (by omega)

/-! ## The judgement of a content -/

def judge (size : Nat) : Except String Member → Except MemberFault ByteArray
  | .error reason => .error (.unreadable reason)
  | .ok member =>
    let (bytes, stop) := member.content.take (capacity size) .empty
    accept size bytes stop

inductive Judged (size : Nat) (member : Except String Member) :
    Except MemberFault ByteArray → Prop where
  | absent {reason} :
      member = .error reason → Judged size member (.error (.unreadable reason))
  | failed {own bytes reason} :
      member = .ok own → own.content.Starts bytes → bytes.size < capacity size →
      own.content.next bytes.size = .failed reason →
      Judged size member (.error (.unreadable reason))
  | tooLong {own bytes} :
      member = .ok own → own.content.Starts bytes → bytes.size = capacity size →
      Judged size member (.error (.tooLong (capacity size) size))
  | wrongLength {own bytes} :
      member = .ok own → own.content.Yields bytes → bytes.size < capacity size →
      bytes.size ≠ size → Judged size member (.error (.wrongLength size bytes.size))
  | good {own data} :
      member = .ok own → own.content.Yields data → data.size < capacity size → data.size = size →
      Judged size member (.ok data)

section Judge

variable {size : Nat} {member : Except String Member} {own : Member} {bytes : ByteArray}

theorem judge_of_take {stop : Stop} (present : member = .ok own)
    (took : own.content.take (capacity size) .empty = (bytes, stop)) :
    judge size member = accept size bytes stop := by
  rw [present, judge, took]

theorem accept_of_full (full : bytes.size = capacity size) :
    accept size bytes .full = .error (.tooLong (capacity size) size) :=
  if_pos (Nat.le_of_eq full.symm)

theorem accept_of_finished (short : bytes.size < capacity size) :
    accept size bytes .finished =
      if bytes.size ≠ size then .error (.wrongLength size bytes.size) else .ok bytes :=
  if_neg (Nat.not_le_of_lt short)

private theorem judged_judge (size : Nat) (member : Except String Member) :
    Judged size member (judge size member) := by
  cases present : member with
  | error reason => exact .absent rfl
  | ok own =>
      cases took : own.content.take (capacity size) .empty with
      | mk bytes stop =>
          obtain ⟨starts, stops⟩ := Stream.take_eq_iff.mp took
          rw [judge_of_take rfl took]
          cases stops with
          | full reached =>
              rw [accept_of_full reached]
              exact .tooLong rfl starts reached
          | finished short ended =>
              rw [accept_of_finished short]
              split
              · exact .wrongLength rfl ⟨starts, ended⟩ short ‹_›
              · exact .good rfl ⟨starts, ended⟩ short (Classical.not_not.mp ‹_›)
          | failed short next => exact .failed rfl starts short next

theorem Judged.eq {result : Except MemberFault ByteArray} (judged : Judged size member result) :
    judge size member = result := by
  cases judged with
  | absent missing => rw [missing, judge]
  | failed present starts short next =>
      exact judge_of_take present (Stream.take_eq_iff.mpr ⟨starts, .failed short next⟩)
  | tooLong present starts full =>
      rw [judge_of_take present (Stream.take_eq_iff.mpr ⟨starts, .full full⟩), accept_of_full full]
  | wrongLength present yields short wrong =>
      rw [judge_of_take present (Stream.take_eq_iff.mpr ⟨yields.1, .finished short yields.2⟩),
        accept_of_finished short, if_pos wrong]
  | good present yields short right =>
      rw [judge_of_take present (Stream.take_eq_iff.mpr ⟨yields.1, .finished short yields.2⟩),
        accept_of_finished short, if_neg (Classical.not_not.mpr right)]

theorem judge_eq_iff {result : Except MemberFault ByteArray} :
    judge size member = result ↔ Judged size member result := by
  constructor
  · rintro rfl
    exact judged_judge size member
  · exact Judged.eq

end Judge

/-- Two members give the same as far as a limit. -/
def Alike (limit : Nat) : Except String Member → Except String Member → Prop
  | .ok member, .ok other =>
    ∀ position < limit, member.content.next position = other.content.next position
  | .error reason, .error another => reason = another
  | _, _ => False

private theorem Alike.judge_eq {size : Nat} {member other : Except String Member}
    (alike : Alike (capacity size) member other) : judge size member = judge size other := by
  cases member with
  | error reason =>
      cases other with
      | error another => exact congrArg (judge size) (congrArg Except.error alike)
      | ok other => exact alike.elim
  | ok member =>
      cases other with
      | error another => exact alike.elim
      | ok other =>
          have same : member.content.take (capacity size) .empty =
              other.content.take (capacity size) .empty :=
            Stream.take_congr fun position before => alike position (by simpa using before)
          rw [judge, judge, same]

/-! ## Decompressing -/

/-- What is taken of archives: from which position, how many bytes, and whether up to the end. -/
def draws (events : List Event) : List (Nat × Nat × Bool) :=
  events.filterMap fun
    | .drawn position size ended => some (position, size, ended)
    | _ => none

section Decompress

variable {archive : Archive} {entry : Entry} {member : Member}

theorem result_memberOf (archive : Archive) (name : String) (position : Nat) :
    (archive.memberOf name position).result =
      (archive.member position).mapError fun reason => .undecodable name (.unreadable reason) := by
  rw [memberOf]
  cases archive.member position <;> rfl

private theorem result_draw (entry : Entry) (member : Member) :
    (draw entry member.content).result =
      (judge entry.size (.ok member)).mapError (.undecodable entry.name) := by
  cases took : member.content.take (capacity entry.size) .empty with
  | mk bytes stop =>
      rw [draw, judge, took, Outcome.result_bind, Outcome.result_emit, Result.ok_bind]
      dsimp only
      cases accept entry.size bytes stop <;> rfl

theorem result_decompress (archive : Archive) (entry : Entry) :
    (archive.decompress entry).result =
      if addressSpace < capacity entry.size then
        .error (.undecodable entry.name (.noMemory entry.size))
      else (judge entry.size (archive.member entry.position)).mapError
        (.undecodable entry.name) := by
  rw [decompress]
  split
  · rfl
  · rw [Outcome.result_bind, result_memberOf]
    cases archive.member entry.position with
    | error reason => rfl
    | ok member =>
        rw [Result.mapError_ok, Result.ok_bind, Outcome.result_bind, result_draw]
        cases judge entry.size (.ok member) <;> rfl

theorem draws_draw {stream : Stream} {bytes : ByteArray} {stop : Stop}
    (took : stream.take (capacity entry.size) .empty = (bytes, stop)) :
    draws (draw entry stream).events =
      [(entry.position, bytes.size, decide (stop = .finished))] := by
  rw [draw, took]
  dsimp only
  rw [Outcome.bind_of_ok (Outcome.result_emit _)]
  cases accept entry.size bytes stop <;> rfl

theorem draws_decompress (room : capacity entry.size ≤ addressSpace) :
    draws (archive.decompress entry).events =
      match archive.member entry.position with
      | .error _ => []
      | .ok member => draws (draw entry member.content).events := by
  rw [decompress, if_neg (Nat.not_lt_of_le room)]
  cases present : archive.member entry.position with
  | error reason =>
      rw [memberOf, present]
      rfl
  | ok member =>
      rw [memberOf, present]
      dsimp only
      rw [Outcome.bind_of_ok (Outcome.result_pure member)]
      cases drawn : (draw entry member.content).result with
      | error error =>
          rw [Outcome.bind_of_error drawn]
          rfl
      | ok data =>
          rw [Outcome.bind_of_ok drawn]
          change draws ([] ++ ((draw entry member.content).events ++ [.noted _])) = _
          rw [List.nil_append, draws, List.filterMap_append]
          exact List.append_nil _

end Decompress

/-- What becomes of an entry, by the stream of the member at its position. -/
structure Judges (archive : Archive) (entry : Entry) (outcome : Outcome ByteArray) : Prop where
  /-- A content is good if its stream ends, without a failure, at the declared size. -/
  accepted data : outcome.result = .ok data ↔
    ∃ member, archive.member entry.position = .ok member ∧ member.content.Yields data ∧
      data.size = entry.size
  /-- The end of whatever is good has been seen. -/
  ended data : outcome.result = .ok data →
    draws outcome.events = [(entry.position, data.size, true)]
  /-- Bytes are taken of this member only, and no more than there is room for. -/
  bounded : draws outcome.events = [] ∨
    ∃ size ended, draws outcome.events = [(entry.position, size, ended)] ∧
      size ≤ capacity entry.size
  /-- Nothing else of the archive, and nothing of the stream beyond the room, counts. -/
  decided (another : Archive) (other : Entry) : other.name = entry.name → other.size = entry.size →
    Alike (capacity entry.size) (archive.member entry.position) (another.member other.position) →
    (another.decompress other).result = outcome.result
  /-- Whatever is not good is an error of this entry. -/
  refused error : outcome.result = .error error → ∃ fault, error = .undecodable entry.name fault ∧
    ((∃ reason, fault = .unreadable reason) ∨ (∃ past declared, fault = .tooLong past declared) ∨
      ∃ declared actual, fault = .wrongLength declared actual)
  /-- The member or its stream fails before the room is filled. -/
  failed reason : outcome.result = .error (.undecodable entry.name (.unreadable reason)) ↔
    archive.member entry.position = .error reason ∨
    ∃ member bytes, archive.member entry.position = .ok member ∧ member.content.Starts bytes ∧
      bytes.size < capacity entry.size ∧ member.content.next bytes.size = .failed reason
  /-- The stream fills the room. -/
  tooLong past declared :
    outcome.result = .error (.undecodable entry.name (.tooLong past declared)) ↔
      past = capacity entry.size ∧ declared = entry.size ∧
        ∃ member bytes, archive.member entry.position = .ok member ∧
          member.content.Starts bytes ∧ bytes.size = capacity entry.size
  /-- The stream ends before that, but not at the declared size. -/
  wrongLength declared actual :
    outcome.result = .error (.undecodable entry.name (.wrongLength declared actual)) ↔
      declared = entry.size ∧ actual < capacity entry.size ∧ actual ≠ entry.size ∧
        ∃ member bytes, archive.member entry.position = .ok member ∧
          member.content.Yields bytes ∧ bytes.size = actual

section Judges

variable {archive : Archive} {entry : Entry} (room : capacity entry.size ≤ addressSpace)

include room

theorem result_decompress_of_room :
    (archive.decompress entry).result =
      (judge entry.size (archive.member entry.position)).mapError (.undecodable entry.name) := by
  rw [result_decompress, if_neg (Nat.not_lt_of_le room)]

theorem decompress_eq_ok_iff {data : ByteArray} :
    (archive.decompress entry).result = .ok data ↔
      Judged entry.size (archive.member entry.position) (.ok data) := by
  rw [result_decompress_of_room room, Result.mapError_eq_ok_iff, judge_eq_iff]

theorem decompress_eq_error_iff {fault : MemberFault} :
    (archive.decompress entry).result = .error (.undecodable entry.name fault) ↔
      Judged entry.size (archive.member entry.position) (.error fault) := by
  rw [result_decompress_of_room room, Result.mapError_eq_error_iff]
  simp only [Error.undecodable.injEq, true_and, exists_eq_right, judge_eq_iff]

private theorem decompress_failed {error : Error}
    (failed : (archive.decompress entry).result = .error error) :
    ∃ fault, error = .undecodable entry.name fault ∧
      Judged entry.size (archive.member entry.position) (.error fault) := by
  rw [result_decompress_of_room room, Result.mapError_eq_error_iff] at failed
  obtain ⟨fault, judged, rfl⟩ := failed
  exact ⟨fault, rfl, judge_eq_iff.mp judged⟩

end Judges

/-- An entry is judged by what its stream holds up to the capacity of its declared size. -/
theorem decompress_judges (archive : Archive) (entry : Entry)
    (room : capacity entry.size ≤ addressSpace) :
    Judges archive entry (archive.decompress entry) where
  accepted data := by
    rw [decompress_eq_ok_iff room]
    constructor
    · intro judged
      cases judged with
      | good present yields _ right => exact ⟨_, present, yields, right⟩
    · rintro ⟨member, present, yields, right⟩
      have short : data.size < capacity entry.size := by
        rw [right]
        exact lt_capacity room
      exact .good present yields short right
  ended data good := by
    cases (decompress_eq_ok_iff room).mp good with
    | good present yields short right =>
        have took := Stream.take_eq_iff.mpr ⟨yields.1, .finished short yields.2⟩
        rw [draws_decompress room, present]
        exact draws_draw took
  bounded := by
    rw [draws_decompress room]
    cases archive.member entry.position with
    | error reason => exact .inl rfl
    | ok member =>
        cases took : member.content.take (capacity entry.size) .empty with
        | mk bytes stop =>
            have within := (Stream.take_eq_iff.mp took).2.le_limit
            exact .inr ⟨bytes.size, _, draws_draw took, within⟩
  decided another other name size alike := by
    have roomToo : capacity other.size ≤ addressSpace := by rwa [size]
    rw [result_decompress_of_room room, result_decompress_of_room roomToo, name, size,
      alike.judge_eq]
  refused error failed := by
    obtain ⟨fault, rfl, judged⟩ := decompress_failed room failed
    refine ⟨fault, rfl, ?_⟩
    cases judged with
    | absent _ => exact .inl ⟨_, rfl⟩
    | failed _ _ _ _ => exact .inl ⟨_, rfl⟩
    | tooLong _ _ _ => exact .inr (.inl ⟨_, _, rfl⟩)
    | wrongLength _ _ _ _ => exact .inr (.inr ⟨_, _, rfl⟩)
  failed reason := by
    rw [decompress_eq_error_iff room]
    constructor
    · intro judged
      cases judged with
      | absent missing => exact .inl missing
      | failed present starts short next => exact .inr ⟨_, _, present, starts, short, next⟩
    · rintro (missing | ⟨member, bytes, present, starts, short, next⟩)
      · exact .absent missing
      · exact .failed present starts short next
  tooLong past declared := by
    rw [decompress_eq_error_iff room]
    constructor
    · intro judged
      cases judged with
      | tooLong present starts full => exact ⟨rfl, rfl, _, _, present, starts, full⟩
    · rintro ⟨rfl, rfl, member, bytes, present, starts, full⟩
      exact .tooLong present starts full
  wrongLength declared actual := by
    rw [decompress_eq_error_iff room]
    constructor
    · intro judged
      cases judged with
      | wrongLength present yields short wrong =>
          exact ⟨rfl, short, wrong, _, _, present, yields, rfl⟩
    · rintro ⟨rfl, short, wrong, member, bytes, present, yields, rfl⟩
      exact .wrongLength present yields short wrong

def single (ending : Next) : Archive where
  size := 1
  find? name := if name = "a" then some 0 else none
  member position :=
    if position = 0 then .ok ⟨6, 1, .of ⟨#[7]⟩ ending⟩
    else .error "specified file not found in archive"

/-- One member under three declared sizes, of which one is right, and the same with a wrong
checksum. -/
theorem decompress_single :
    (∀ size ∈ [0, 1, 5], capacity size ≤ addressSpace) ∧
    ((single .finished).decompress ⟨"a", 6, 1, 0⟩).result = .ok ⟨#[7]⟩ ∧
    ((single .finished).decompress ⟨"a", 6, 0, 0⟩).result =
      .error (.undecodable "a" (.tooLong 1 0)) ∧
    ((single .finished).decompress ⟨"a", 6, 5, 0⟩).result =
      .error (.undecodable "a" (.wrongLength 5 1)) ∧
    ((single (.failed "Invalid checksum")).decompress ⟨"a", 6, 1, 0⟩).result =
      .error (.undecodable "a" (.unreadable "Invalid checksum")) := by
  have room : ∀ size ∈ [0, 1, 5], capacity size ≤ addressSpace := by decide
  have right := decompress_judges (single .finished) ⟨"a", 6, 1, 0⟩ (room 1 (by decide))
  have low := decompress_judges (single .finished) ⟨"a", 6, 0, 0⟩ (room 0 (by decide))
  have high := decompress_judges (single .finished) ⟨"a", 6, 5, 0⟩ (room 5 (by decide))
  have broken := decompress_judges (single (.failed "Invalid checksum")) ⟨"a", 6, 1, 0⟩
    (room 1 (by decide))
  have starts (ending : Next) : (Stream.of ⟨#[7]⟩ ending).Starts ⟨#[7]⟩ :=
    fun _ within => dif_pos within
  have yields : (Stream.of ⟨#[7]⟩ .finished).Yields ⟨#[7]⟩ := ⟨starts _, rfl⟩
  refine ⟨room, (right.accepted _).mpr ⟨_, rfl, yields, rfl⟩, ?_, ?_, ?_⟩
  · exact (low.tooLong _ _).mpr ⟨rfl, rfl, _, _, rfl, starts _, rfl⟩
  · exact (high.wrongLength _ _).mpr ⟨rfl, by decide, by decide, _, _, rfl, yields, rfl⟩
  · exact (broken.failed _).mpr (.inr ⟨_, _, rfl, starts _, by decide, rfl⟩)

end FlashHost.Archive
