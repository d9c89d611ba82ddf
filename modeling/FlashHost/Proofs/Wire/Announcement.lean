import FlashHost.Proofs.Wire.Account
import FlashHost.Proofs.Wire.Course
import FlashHost.Proofs.Wire.Packet

/-!
# Announcements and invitations

A payload is announced by its size in eight digits, and a device that has these digits to
say, in whatever case and between whatever zeros and blanks, invites just this payload. A
device that invites another size gets nothing.
-/

set_option autoImplicit false

namespace FlashHost

inductive Response.Invitation (size : Nat) : ByteArray → Prop where
  | mk {before after digits : List Char} {zeros : Nat} :
      Text.Blank before → Numeral.Recased digits (Numeral.fixed 16 8 size) → Text.Blank after →
      Invitation size ("DATA".toUTF8 ++
        (String.ofList (before ++ (List.replicate zeros '0' ++ digits) ++ after)).toUTF8)

structure Protocol.Announces (command : String) (size : Nat) : Prop where
  spelled : ∃ digits : String, command = "download:" ++ digits ∧ digits.length = 8 ∧
    (∀ c ∈ digits.toList, c ∈ "0123456789abcdef".toList) ∧
    Numeral.Denotes 16 digits.toList size ∧
    Response.Invitation size ("DATA".toUTF8 ++ digits.toUTF8)
  short : command.utf8ByteSize ≤ 64

structure Outcome.Announced (outcome : Outcome Unit) (payload : ByteArray) : Prop where
  commanded : (written outcome.exchanges).head? =
    some (Protocol.downloadCommand payload.size).toUTF8
  /-- Neither the command nor the payload is found too large. -/
  allowed : ∀ error, outcome.result = .error error → error.kind ≠ .argument
  /-- The payload is sent if its own size comes back. -/
  accepted : ∀ packet, firstFinal outcome.exchanges = some (.ok packet) →
    Response.Invitation payload.size packet →
    .progress (.transferStarted payload.size) ∈ outcome.events
  /-- Nothing more is written if another size comes back. -/
  refused : ∀ packet size, firstFinal outcome.exchanges = some (.ok packet) → size < 2 ^ 32 →
    Response.Invitation size packet → size ≠ payload.size →
    outcome.result = .error (.protocol (.sizeMismatch payload.size size)) ∧
      written outcome.exchanges = [(Protocol.downloadCommand payload.size).toUTF8]

theorem Response.parse_invitation {size : Nat} {packet : ByteArray} (small : size < 2 ^ 32)
    (invitation : Invitation size packet) : parse packet = .ok (.data size) := by
  cases invitation with
  | @mk before after digits zeros blank recased blankAfter =>
      have usual : Numeral.Denotes 16 (Numeral.fixed 16 8 size) size :=
        Numeral.denotes_fixed (by decide) small
      have denotes : Numeral.Denotes 16 (List.replicate zeros '0' ++ digits) size :=
        (usual.recased (Nat.le_refl 16) recased).zeros (by decide) zeros
      rw [parse_data, textOfBytes_toUTF8, String.toList_ofList,
        size?_eq_some_iff.mpr (.plain blank denotes blankAfter small)]

namespace Protocol

private theorem announces_downloadCommand {size : Nat} (small : size < 2 ^ 32) :
    Announces (downloadCommand size) size where
  spelled := by
    refine ⟨Numeral.hex 8 size, rfl, ?_, ?_, ?_, ?_⟩
    · rw [Numeral.hex, String.length_ofList, Numeral.length_fixed]
    · rw [Numeral.hex, String.toList_ofList]
      exact Numeral.hexDigit_of_mem_fixed 8 size
    · rw [Numeral.hex, String.toList_ofList]
      exact Numeral.denotes_fixed (by decide) small
    · have invitation := @Response.Invitation.mk size [] [] _ 0 (List.forall_mem_nil _)
        (.refl _) (List.forall_mem_nil _)
      rwa [List.replicate_zero, List.nil_append, List.nil_append, List.append_nil] at invitation
  short := by simp

/-- Different sizes have different announcements. -/
theorem downloadCommand_inj {size other : Nat} (small : size < 2 ^ 32) (smallToo : other < 2 ^ 32)
    (same : downloadCommand size = downloadCommand other) : size = other := by
  have lists : "download:".toList ++ Numeral.fixed 16 8 size =
      "download:".toList ++ Numeral.fixed 16 8 other := by
    have texts := congrArg String.toList same
    simp only [downloadCommand, String.toList_append, Numeral.hex, String.toList_ofList] at texts
    exact texts
  have denotes : Numeral.Denotes 16 (Numeral.fixed 16 8 size) size :=
    Numeral.denotes_fixed (by decide) small
  have denotesToo : Numeral.Denotes 16 (Numeral.fixed 16 8 other) other :=
    Numeral.denotes_fixed (by decide) smallToo
  rw [← List.append_cancel_left lists] at denotesToo
  exact denotes.unique (Nat.le_refl 16) denotesToo

end Protocol

/-! ## What comes of an invitation -/

variable {payload : ByteArray} {steps : List Event}

/-- Every download begins with its command and the wait for a reply. -/
theorem Downloading.asks {result : Except Error Unit} (course : Downloading payload steps result) :
    ∃ front later reply, steps = front ++ later ∧
      Asking (Protocol.downloadCommand payload.size) front reply := by
  cases course with
  | unanswered asking => exact ⟨_, [], _, (List.append_nil _).symm, asking⟩
  | uninvited asking => exact ⟨_, [], _, (List.append_nil _).symm, asking⟩
  | mismatch asking _ => exact ⟨_, [], _, (List.append_nil _).symm, asking⟩
  | broken asking _ => exact ⟨_, _, _, rfl, asking⟩
  | sent asking _ _ => exact ⟨_, _, _, rfl, asking⟩

/-- A download goes on to the payload if its size is invited, and ends there if another is. -/
theorem Downloading.invited {result : Except Error Unit} {packet : ByteArray} {size : Nat}
    (course : Downloading payload steps result)
    (first : firstFinal (steps.filterMap Event.exchange?) = some (.ok packet))
    (parsed : Response.parse packet = .ok (.data size)) :
    (size = payload.size ∧ .progress (.transferStarted payload.size) ∈ steps) ∨
    (size ≠ payload.size ∧ result = .error (.protocol (.sizeMismatch payload.size size)) ∧
      written (steps.filterMap Event.exchange?) =
        [(Protocol.downloadCommand payload.size).toUTF8]) := by
  have reply : Response.parse packet = .ok (Reply.data size).response := parsed
  cases course with
  | unanswered asking => cases (asking.settles first).eq_of_parse reply
  | uninvited asking => cases (asking.settles first).eq_of_parse reply
  | mismatch asking other =>
      cases (asking.settles first).eq_of_parse reply
      exact .inr ⟨other, rfl, asking.written_eq⟩
  | broken asking _ =>
      cases asking.reply_eq first reply
      exact .inl ⟨rfl, by simp⟩
  | sent asking _ _ =>
      cases asking.reply_eq first reply
      exact .inl ⟨rfl, by simp⟩

namespace Protocol

variable {σ : Type}

/-- Every parcel of a payload that is small enough may be sent. -/
theorem kind_of_download (transport : Transport σ) (small : payload.size < 2 ^ 32) (device : σ)
    {error : Error} (failed : (download transport payload device).1.result = .error error) :
    error.kind ≠ .argument := by
  have conducted := conducts_download transport payload device
  rw [Outcome.Conducts, failed] at conducted
  intro argument
  obtain ⟨done, parcel, rest, parts, barred, -⟩ := conducted.argument_iff.mp argument
  have member : parcel ∈ sends (Round.payload payload).turns := by simp [parts]
  rw [Round.sends_turns, Round.parcels, List.mem_cons] at member
  rcases member with rfl | piece
  · exact barred small
  · obtain ⟨number, -, rfl⟩ := List.mem_map.mp piece
    exact barred trivial

private theorem announced_download (transport : Transport σ) (small : payload.size < 2 ^ 32) (device : σ) :
    (download transport payload device).1.Announced payload := by
  have course := shows_download transport small device
  have allowed (error : Error) := @kind_of_download payload σ transport small device error
  generalize (download transport payload device).1 = outcome at course allowed
  have calls : (acts outcome.events).filterMap Event.exchange? = outcome.exchanges :=
    exchanges_acts outcome.events
  refine ⟨?_, allowed, ?_, ?_⟩
  · obtain ⟨front, later, reply, parts, asking⟩ := course.asks
    rw [← calls, parts, List.filterMap_append, written_append, asking.written_eq]
    rfl
  · intro packet first invitation
    rw [← calls] at first
    obtain ⟨-, started⟩ | ⟨other, -⟩ :=
      course.invited first (Response.parse_invitation small invitation)
    · exact List.mem_of_mem_filter started
    · exact absurd rfl other
  · intro packet size first inRange invitation other
    rw [← calls] at first
    obtain ⟨same, -⟩ | ⟨-, refused⟩ :=
      course.invited first (Response.parse_invitation inRange invitation)
    · exact absurd same other
    · rwa [calls] at refused

/-- What is announced is what is read back: a size below `2 ^ 32` is spelled in its own way, a
packet with its digits invites it, and a download goes on just with the size that it announced. -/
theorem announcements_agree :
    (∀ size < 2 ^ 32, Announces (downloadCommand size) size) ∧
    (∀ size < 2 ^ 32, ∀ other < 2 ^ 32,
      downloadCommand size = downloadCommand other → size = other) ∧
    (∀ size < 2 ^ 32, ∀ packet, Response.Invitation size packet →
      Response.parse packet = .ok (.data size)) ∧
    (∀ {σ : Type} (transport : Transport σ) (payload : ByteArray) (device : σ),
      payload.size < 2 ^ 32 → (download transport payload device).1.Announced payload) := by
  refine ⟨?_, ?_, ?_, ?_⟩
  · intro size small
    exact announces_downloadCommand small
  · intro size small other smallToo same
    exact downloadCommand_inj small smallToo same
  · intro size small packet invitation
    exact Response.parse_invitation small invitation
  · intro σ transport payload device small
    exact announced_download transport small device

end Protocol

end FlashHost
