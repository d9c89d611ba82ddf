import FlashHost.Device.Script
import FlashHost.Proofs.Wire.Serving

/-!
# What a scripted device gives

The calls that a scripted device saw use up the front of its script: each write got the
answer with its number, and each read the next answer, as long as there was one.
-/

set_option autoImplicit false

namespace FlashHost

def ReadAnswer.outcome : ReadAnswer → Except TransportFault ByteArray
  | .packet data => .ok (data.extract 0 64)
  | .fault text => .error (.other text)

theorem extract_receive (packet buffer : ByteArray) :
    (receive packet buffer).2.extract 0 (receive packet buffer).1 =
      packet.extract 0 buffer.size := by
  have front : (packet.extract 0 (min packet.size buffer.size)).size =
      min packet.size buffer.size := by
    simp [ByteArray.size_extract]
  rw [receive, ByteArray.extract_append_eq_left front.symm]
  rcases Nat.le_total packet.size buffer.size with short | long
  · ext1
    simp [Nat.min_eq_left short, Array.extract_eq_self_of_le short]
  · rw [Nat.min_eq_right long]

theorem size_receive (packet buffer : ByteArray) :
    (receive packet buffer).2.size = buffer.size := by
  simp only [receive, ByteArray.size_append, ByteArray.size_extract]
  omega

namespace Script

def writeOutcome (script : Script) (number size : Nat) : Except TransportFault Nat :=
  match script.writes[number]? with
  | some answer => answer.result size
  | none => .ok size

theorem keepsSize : transport.KeepsSize := by
  intro buffer filled script size gave
  rcases script with ⟨writes, answers⟩
  match answers with
  | [] => cases gave
  | .fault text :: answers => cases gave
  | .packet data :: answers =>
      cases gave
      exact size_receive data buffer

/-- The answers to the reads that were served were used up in order, and the reads beyond
the last answer failed. -/
theorem received_of_serves {script left : Script} {exchanges : List Exchange}
    (served : Serves transport script exchanges left) :
    ∃ consumed missing, script.reads = consumed ++ left.reads ∧
      received exchanges = consumed.map ReadAnswer.outcome ++
        List.replicate missing (.error (.other "no response")) ∧
      (missing ≠ 0 → left.reads = []) := by
  induction served with
  | nil => exact ⟨[], 0, rfl, rfl, by simp⟩
  | @write script data exchanges left served ih =>
      have same : (transport.write data script).device.reads = script.reads := by
        rcases script with ⟨_ | ⟨answer, writes⟩, answers⟩ <;> rfl
      rw [same] at ih
      exact ih
  | @read script buffer exchanges left sized served ih =>
      obtain ⟨consumed, missing, parts, got, exhausted⟩ := ih
      rcases script with ⟨writes, answers⟩
      match answers with
      | [] =>
          have none : consumed ++ left.reads = [] := parts.symm
          obtain ⟨rfl, last⟩ := List.append_eq_nil_iff.mp none
          refine ⟨[], missing + 1, last.symm, ?_, fun _ => last⟩
          rw [received_read, got]
          rfl
      | .fault text :: answers =>
          refine ⟨.fault text :: consumed, missing, congrArg _ parts, ?_, exhausted⟩
          rw [received_read, got]
          rfl
      | .packet data :: answers =>
          refine ⟨.packet data :: consumed, missing, congrArg _ parts, ?_, exhausted⟩
          have packet := extract_receive data buffer
          rw [sized] at packet
          rw [received_read, got, List.map_cons, ReadAnswer.outcome, List.cons_append]
          exact congrArg (· :: _) (congrArg Except.ok packet)

theorem write_of_serves {script left : Script} {before after : List Exchange}
    {data : ByteArray} {outcome : Except TransportFault Nat}
    (served : Serves transport script (before ++ .write data outcome :: after) left) :
    outcome = script.writeOutcome (written before).length data.size := by
  generalize whole : before ++ .write data outcome :: after = exchanges at served
  induction served generalizing before with
  | nil => simp at whole
  | @write script bytes exchanges left served ih =>
      cases before with
      | nil =>
          cases whole
          rcases script with ⟨_ | ⟨answer, writes⟩, answers⟩ <;> rfl
      | cons call before =>
          obtain ⟨rfl, rest⟩ := List.cons.inj whole
          rw [ih rest]
          rcases script with ⟨_ | ⟨answer, writes⟩, answers⟩ <;>
            simp [transport, write, writeOutcome]
  | @read script buffer exchanges left sized served ih =>
      cases before with
      | nil => cases whole
      | cons call before =>
          obtain ⟨rfl, rest⟩ := List.cons.inj whole
          rw [ih rest]
          rcases script with ⟨writes, _ | ⟨_ | _, answers⟩⟩ <;> rfl

end Script

end FlashHost
