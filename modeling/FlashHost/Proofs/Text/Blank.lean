import FlashHost.Text.Blank
import Mathlib.Data.List.TakeWhile

/-!
# Text between blanks

Trimming takes away blanks alone, and gives back any text without blanks that
stands between them.
-/

set_option autoImplicit false

namespace FlashHost.Text

def Blank (cs : List Char) : Prop :=
  ∀ c ∈ cs, isBlank c = true

private theorem exists_blanks_trimEnd (cs : List Char) :
    ∃ after, Blank after ∧ cs = trimEnd cs ++ after := by
  refine ⟨(cs.reverse.takeWhile isBlank).reverse, ?_, ?_⟩
  · intro c member
    exact List.mem_takeWhile_imp (List.mem_reverse.mp member)
  · rw [trimEnd, ← List.reverse_append, List.takeWhile_append_dropWhile, List.reverse_reverse]

/-- Only blanks are trimmed. -/
theorem exists_blanks_trim (cs : List Char) :
    ∃ before after, Blank before ∧ Blank after ∧ cs = before ++ trim cs ++ after := by
  obtain ⟨after, blank, eq⟩ := exists_blanks_trimEnd (cs.dropWhile isBlank)
  refine ⟨cs.takeWhile isBlank, after, fun c => List.mem_takeWhile_imp, blank, ?_⟩
  rw [List.append_assoc, trim, ← eq, List.takeWhile_append_dropWhile]

variable {before cs after : List Char}

private theorem dropWhile_printed (printed : ∀ c ∈ cs, isBlank c = false) : cs.dropWhile isBlank = cs := by
  cases cs with
  | nil => rfl
  | cons c cs => rw [List.dropWhile_cons_of_neg (by rw [printed c List.mem_cons_self]; decide)]

private theorem trimEnd_append (blank : Blank after) (printed : ∀ c ∈ cs, isBlank c = false) :
    trimEnd (cs ++ after) = cs := by
  have blank : ∀ c ∈ after.reverse, isBlank c = true := fun c member =>
    blank c (List.mem_reverse.mp member)
  have printed : ∀ c ∈ cs.reverse, isBlank c = false := fun c member =>
    printed c (List.mem_reverse.mp member)
  rw [trimEnd, List.reverse_append, List.dropWhile_append_of_pos blank, dropWhile_printed printed,
    List.reverse_reverse]

/-- Text without blanks is what is left of it between blanks. -/
theorem trim_between (blank : Blank before) (blankAfter : Blank after)
    (printed : ∀ c ∈ cs, isBlank c = false) : trim (before ++ cs ++ after) = cs := by
  rw [List.append_assoc, trim, List.dropWhile_append_of_pos blank]
  cases cs with
  | nil => rw [List.nil_append, List.dropWhile_eq_nil_iff.mpr blankAfter]; rfl
  | cons c cs =>
      rw [List.cons_append, List.dropWhile_cons_of_neg
        (by rw [printed c List.mem_cons_self]; decide), ← List.cons_append]
      exact trimEnd_append blankAfter printed

end FlashHost.Text
