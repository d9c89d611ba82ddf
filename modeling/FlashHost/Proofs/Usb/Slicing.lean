import FlashHost.Proofs.Usb.Conveyance

/-!
# Writing in slices

A buffer goes out in slices of limited length, each of which starts where the one before it
ended. The first slice that is not taken whole is the last, so that the bytes that are
reported as written are those at the front of the buffer.
-/

set_option autoImplicit false

namespace FlashHost

theorem octets_extract (data : ByteArray) (first last : Nat) :
    octets (data.extract first last) = ((octets data).drop first).take (last - first) := by
  rw [octets, ByteArray.data_extract, Array.toList_extract, List.extract_eq_take_drop]
  rfl

/-- There is just one way to find an element in a list that has no other. -/
theorem eq_of_singleton_split {α : Type} {only element : α} {earlier later : List α}
    (parts : [only] = earlier ++ element :: later) :
    earlier = [] ∧ element = only ∧ later = [] := by
  obtain ⟨rfl, tail⟩ | ⟨-, tail⟩ := List.append_eq_singleton_iff.mp parts.symm
  · cases tail
    exact ⟨rfl, rfl, rfl⟩
  · cases tail

private theorem exists_takes (listed : List Transfer) : ∃ bytes, Takes listed bytes := by
  induction listed with
  | nil => exact ⟨[], .nil⟩
  | cons transfer listed ih =>
      obtain ⟨others, takes⟩ := ih
      cases transfer with
      | incoming endpoint limit outcome => exact ⟨[] ++ others, .cons rfl takes⟩
      | outgoing endpoint data outcome =>
          cases outcome with
          | ok count => exact ⟨(octets data).take count ++ others, .cons rfl takes⟩
          | error fault => exact ⟨[] ++ others, .cons List.nil_prefix takes⟩

namespace Usb

def slice (limit : Nat) (data : ByteArray) (offset : Nat) : ByteArray :=
  data.extract offset (offset + limit)

inductive Slices (limit : Nat) (endpoint : UInt8) (data : ByteArray) :
    Nat → List Transfer → Except TransportFault Nat → Prop where
  | done : Slices limit endpoint data data.size [] (.ok data.size)
  | failed {offset fault} :
      offset < data.size →
      Slices limit endpoint data offset
        [.outgoing endpoint (slice limit data offset) (.error fault)]
        (.error (Connection.transportFault fault))
  | short {offset count} :
      offset < data.size → count < (slice limit data offset).size →
      Slices limit endpoint data offset [.outgoing endpoint (slice limit data offset) (.ok count)]
        (.ok (offset + count))
  | whole {offset transfers result} :
      offset < data.size →
      Slices limit endpoint data (offset + (slice limit data offset).size) transfers result →
      Slices limit endpoint data offset
        (.outgoing endpoint (slice limit data offset) (.ok (slice limit data offset).size) ::
          transfers)
        result

/-- The transfers get the answers of a device in order, and leave the others. A device without
answers takes all. -/
inductive Answered (endpoint : UInt8) :
    List OutgoingAnswer → List Transfer → List OutgoingAnswer → Prop where
  | nil {answers} : Answered endpoint answers [] answers
  | cons {answers piece transfers left} :
      Answered endpoint answers.tail transfers left →
      Answered endpoint answers
        (.outgoing endpoint piece
            (Connection.outgoingResult piece.size (answers.headD .all)) :: transfers)
        left

variable {limit : Nat}

theorem size_slice (limit : Nat) (data : ByteArray) (offset : Nat) :
    (slice limit data offset).size = min (offset + limit) data.size - offset := by
  rw [slice, ByteArray.size_extract]

private theorem size_slice_bounds {data : ByteArray} {offset : Nat} (positive : 0 < limit)
    (inside : offset < data.size) :
    0 < (slice limit data offset).size ∧ (slice limit data offset).size ≤ limit := by
  rw [size_slice]
  omega

theorem octets_slice (data : ByteArray) (offset : Nat) :
    octets (slice limit data offset) =
      ((octets data).drop offset).take (slice limit data offset).size := by
  rw [size_slice, slice, octets_extract, List.take_eq_take_iff, List.length_drop,
    length_octets]
  omega

/-! ## What the slices come to -/

namespace Slices

variable {endpoint : UInt8} {data : ByteArray} {offset : Nat} {listed : List Transfer}
  {result : Except TransportFault Nat}

/-- Each slice starts where those before it end. -/
theorem consecutive (slices : Slices limit endpoint data offset listed result)
    {earlier later : List Transfer} {transfer : Transfer}
    (parts : listed = earlier ++ transfer :: later) :
    offset + (submitted earlier).length < data.size ∧ ∃ outcome,
      transfer =
        .outgoing endpoint (slice limit data (offset + (submitted earlier).length)) outcome := by
  induction slices generalizing earlier with
  | done => simp at parts
  | failed inside =>
      obtain ⟨rfl, rfl, -⟩ := eq_of_singleton_split parts
      exact ⟨inside, _, rfl⟩
  | short inside _ =>
      obtain ⟨rfl, rfl, -⟩ := eq_of_singleton_split parts
      exact ⟨inside, _, rfl⟩
  | @whole offset listed result inside _ ih =>
      cases earlier with
      | nil =>
          cases parts
          exact ⟨inside, _, rfl⟩
      | cons first earlier =>
          obtain ⟨rfl, tail⟩ := List.cons.inj parts
          obtain ⟨within, outcome, same⟩ := ih tail
          have length : (submitted (.outgoing endpoint (slice limit data offset)
              (.ok (slice limit data offset).size) :: earlier)).length =
                (slice limit data offset).size + (submitted earlier).length :=
            List.length_append
          rw [length, ← Nat.add_assoc]
          exact ⟨within, outcome, same⟩

theorem cut_last (slices : Slices limit endpoint data offset listed result)
    {earlier later : List Transfer} {transfer : Transfer}
    (parts : listed = earlier ++ transfer :: later) (cut : transfer.Cut) : later = [] := by
  induction slices generalizing earlier with
  | done => simp at parts
  | failed => exact (eq_of_singleton_split parts).2.2
  | short => exact (eq_of_singleton_split parts).2.2
  | whole inside _ ih =>
      cases earlier with
      | nil =>
          cases parts
          exact absurd rfl cut
      | cons first earlier => exact ih (List.cons.inj parts).2

private theorem whole_iff (slices : Slices limit endpoint data offset listed result) :
    result = .ok data.size ↔ ∀ transfer ∈ listed, ¬ transfer.Cut := by
  induction slices with
  | done => simp
  | failed inside => simp [Transfer.Cut]
  | @short offset count inside fewer =>
      have size := size_slice limit data offset
      simp [Transfer.Cut]
      omega
  | whole inside _ ih => simpa [Transfer.Cut] using ih

theorem failed_iff (slices : Slices limit endpoint data offset listed result)
    {error : TransportFault} :
    result = .error error ↔ ∃ fault piece, error = Connection.transportFault fault ∧
      .outgoing endpoint piece (.error fault) ∈ listed := by
  induction slices with
  | done => simp
  | @failed offset fault inside =>
      constructor
      · intro same
        cases same
        exact ⟨fault, _, rfl, List.mem_singleton_self _⟩
      · rintro ⟨other, piece, rfl, member⟩
        cases List.mem_singleton.mp member
        rfl
  | short inside fewer => simp
  | whole inside _ ih => simpa using ih

theorem count_le (slices : Slices limit endpoint data offset listed result) {count : Nat}
    (done : result = .ok count) : count ≤ data.size := by
  induction slices with
  | done =>
      cases done
      exact Nat.le_refl _
  | failed => cases done
  | @short offset counted inside fewer =>
      cases done
      have size := size_slice limit data offset
      omega
  | whole _ _ ih => exact ih done

/-- The bytes that are reported as written are those that were taken. -/
theorem taken_eq (slices : Slices limit endpoint data offset listed result) {count : Nat}
    (done : result = .ok count) {bytes : List UInt8} (takes : Takes listed bytes) :
    ∃ more, count = offset + more ∧ bytes = ((octets data).drop offset).take more := by
  induction slices generalizing bytes with
  | done =>
      cases done
      cases takes
      exact ⟨0, rfl, List.take_zero.symm⟩
  | failed inside => cases done
  | @short offset counted inside fewer =>
      cases done
      cases takes with
      | cons own rest =>
          cases rest
          have front : _ = (octets (slice limit data offset)).take counted := own
          refine ⟨counted, rfl, ?_⟩
          rw [List.append_nil, front, octets_slice, List.take_take,
            Nat.min_eq_left (Nat.le_of_lt fewer)]
  | @whole offset listed result inside _ ih =>
      cases takes with
      | @cons _ _ own others taken rest =>
          obtain ⟨more, total, same⟩ := ih done rest
          refine ⟨(slice limit data offset).size + more, by omega, ?_⟩
          have front :
              own = (octets (slice limit data offset)).take (slice limit data offset).size :=
            taken
          rw [front, same, List.take_add, octets_slice, List.take_take, Nat.min_self,
            List.drop_drop]

end Slices

namespace Connection

theorem submit_eq (data : ByteArray) (connection : Connection) :
    connection.submit data =
      (outgoingResult data.size (connection.outgoing.headD .all),
        { connection with outgoing := connection.outgoing.tail }) := by
  rcases connection with ⟨serial, endpoints, outgoing, incoming⟩
  cases outgoing <;> rfl

/-- No more bytes are taken than were submitted. -/
theorem outgoingResult_le {size count : Nat} {answer : OutgoingAnswer}
    (taken : outgoingResult size answer = .ok count) : count ≤ size := by
  cases answer with
  | all =>
      cases taken
      exact Nat.le_refl size
  | leading limit =>
      cases taken
      exact Nat.min_le_right limit size
  | fault fault => cases taken

/-- From an offset on, when all before it was taken. -/
theorem slices_writePieces (positive : 0 < limit) (data : ByteArray) (offset : Nat)
    (connection : Connection) :
    let call := writePieces (min offset data.size) (piecesFrom limit data offset) connection
    Slices limit connection.endpoints.outgoing data (min offset data.size) call.transfers
      call.result := by
  -- The offset of the recursion goes past the end of the buffer, hence the minimum.
  fun_induction piecesFrom limit data offset generalizing connection with
  | case1 offset more ih =>
      have inside : offset < data.size := more.2
      have size := size_slice limit data offset
      have start : min offset data.size = offset := Nat.min_eq_left (Nat.le_of_lt inside)
      have stop : min (offset + limit) data.size = offset + (slice limit data offset).size := by
        omega
      change let call := writePieces _ (slice limit data offset :: _) _; Slices _ _ _ _
        call.transfers call.result
      rw [start, writePieces, submit_eq]
      cases outcome : outgoingResult (slice limit data offset).size
          (connection.outgoing.headD .all) with
      | error fault => exact .failed inside
      | ok count =>
          dsimp only
          by_cases all : count = (slice limit data offset).size
          · subst all
            rw [if_neg (not_not.mpr rfl), ← stop]
            have rest := ih { connection with outgoing := connection.outgoing.tail }
            rw [stop] at rest ⊢
            exact .whole inside rest
          · rw [if_pos all]
            have fewer : count < (slice limit data offset).size :=
              Nat.lt_of_le_of_ne (outgoingResult_le outcome) all
            exact .short inside fewer
  | case2 offset none =>
      have finished : min offset data.size = data.size := by omega
      rw [finished]
      exact .done

theorem slices_write (data : ByteArray) (connection : Connection) :
    Slices maxTransferSize connection.endpoints.outgoing data 0 (write data connection).transfers
      (write data connection).result := by
  have slices := slices_writePieces (by decide : 0 < maxTransferSize) data 0 connection
  rw [Nat.zero_min] at slices
  exact slices

private theorem answered_writePieces (written : Nat) (pieces : List ByteArray) (connection : Connection) :
    let call := writePieces written pieces connection
    ∃ left, Answered connection.endpoints.outgoing connection.outgoing call.transfers left ∧
      call.device = { connection with outgoing := left } := by
  induction pieces generalizing written connection with
  | nil => exact ⟨connection.outgoing, .nil, rfl⟩
  | cons piece pieces ih =>
      rw [writePieces, submit_eq]
      have last := @Answered.cons connection.endpoints.outgoing _ piece [] _
        (@Answered.nil _ connection.outgoing.tail)
      cases outcome : outgoingResult piece.size (connection.outgoing.headD .all) with
      | error fault =>
          rw [outcome] at last
          exact ⟨_, last, rfl⟩
      | ok count =>
          dsimp only
          by_cases cut : count ≠ piece.size
          · rw [if_pos cut]
            rw [outcome] at last
            exact ⟨_, last, rfl⟩
          · rw [if_neg cut]
            obtain ⟨left, answered, kept⟩ :=
              ih (written + count) { connection with outgoing := connection.outgoing.tail }
            refine ⟨left, ?_, kept⟩
            have whole := @Answered.cons _ _ piece _ _ answered
            rw [outcome] at whole
            exact whole

end Connection

structure Sliced (data : ByteArray) (connection : Connection) (call : Call Connection Nat) :
    Prop where
  /-- Each transfer submits at most `2 ^ 20` of the bytes that follow those submitted before. -/
  consecutive : ∀ earlier transfer later, call.transfers = earlier ++ transfer :: later →
    ∃ piece outcome, transfer = .outgoing connection.endpoints.outgoing piece outcome ∧
      piece = data.extract (submitted earlier).length ((submitted earlier).length + 2 ^ 20) ∧
      0 < piece.size ∧ piece.size ≤ 2 ^ 20
  stops : ∀ earlier transfer later, call.transfers = earlier ++ transfer :: later →
    transfer.Cut → later = []
  /-- The count that is reported is that of the bytes taken, which are the first of the buffer. -/
  taken : ∀ count, call.result = .ok count → count ≤ data.size ∧
    ∀ bytes, Takes call.transfers bytes ↔ bytes = (octets data).take count
  whole : call.result = .ok data.size ↔ ∀ transfer ∈ call.transfers, ¬ transfer.Cut
  failed : ∀ error, call.result = .error error ↔ ∃ fault piece,
    error = Connection.transportFault fault ∧
      .outgoing connection.endpoints.outgoing piece (.error fault) ∈ call.transfers
  empty : data.size = 0 → call = ⟨.ok 0, [], connection⟩
  answered : ∃ left,
    Answered connection.endpoints.outgoing connection.outgoing call.transfers left ∧
      call.device = { connection with outgoing := left }

/-- Whatever becomes of the transfers, a write loses no byte of its buffer and repeats none. -/
theorem sliced_write (data : ByteArray) (connection : Connection) :
    Sliced data connection (Connection.write data connection) := by
  have slices := Connection.slices_write data connection
  have answered := Connection.answered_writePieces 0 (pieces maxTransferSize data) connection
  refine ⟨?_, ?_, ?_, slices.whole_iff, ?_, ?_, answered⟩
  · intro earlier transfer later parts
    obtain ⟨inside, outcome, same⟩ := slices.consecutive parts
    rw [Nat.zero_add] at inside same
    obtain ⟨some, bounded⟩ := size_slice_bounds (by decide : 0 < maxTransferSize) inside
    exact ⟨_, outcome, same, rfl, some, bounded⟩
  · intro earlier transfer later parts cut
    exact slices.cut_last parts cut
  · intro count done
    have front {bytes : List UInt8} (takes : Takes (Connection.write data connection).transfers
        bytes) : bytes = (octets data).take count := by
      obtain ⟨more, total, same⟩ := slices.taken_eq done takes
      rwa [List.drop_zero, ← Nat.zero_add more, ← total] at same
    obtain ⟨taken, takes⟩ := exists_takes (Connection.write data connection).transfers
    refine ⟨slices.count_le done, fun bytes => ⟨front, ?_⟩⟩
    rintro rfl
    rwa [← front takes]
  · intro error
    exact slices.failed_iff
  · intro empty
    exact write_of_empty empty connection

end Usb

end FlashHost
