import DiagramSync.Proofs.Diagram.Distinct
import DiagramSync.Proofs.Text.Words

/-!
The text of a label is coded: inside its quotes nothing ends the label, each `#` opens a code, and
reading the codes from left to right gives the text back on one line.
-/

namespace DiagramSync

open Text

namespace Text

theorem replaceAll_singleton (p : Char) (replacement text : Text) :
    replaceAll [p] replacement text = text.flatMap fun c => if c = p then replacement else [c] := by
  induction text with
  | nil => simp [replaceAll]
  | cons c rest ih =>
    rw [List.flatMap_cons, ← ih]
    by_cases hc : c = p
    · have hbegins : [p] <+: c :: rest := ⟨rest, by simp [hc]⟩
      rw [replaceAll_cons_of_begins hbegins, if_pos hc]
      simp
    · have hnot : ¬ [p] <+: c :: rest := by simpa [List.cons_prefix_cons] using Ne.symm hc
      rw [replaceAll_cons_of_not_begins hnot, if_neg hc, List.singleton_append]

end Text

namespace Label

/-- The codes can be written by two replacements over the whole text, the one of `#` first: the code
of a quote brings in a `#` that is not replaced any more, and that of a `#` brings in no quote. -/
theorem flatMap_escapeChar_eq_replaceAll (text : Text) : text.flatMap escapeChar =
    replaceAll ['"'] "#quot;".toList (replaceAll ['#'] "#35;".toList text) := by
  rw [replaceAll_singleton, replaceAll_singleton, List.flatMap_assoc]
  refine List.flatMap_congr fun c _ => ?_
  by_cases hhash : c = '#'
  · subst hhash
    rfl
  · rw [if_neg hhash, List.flatMap_singleton, escapeChar, if_neg hhash]

/-- Where a text with codes goes on from a `#`, it goes on with the rest of a code. -/
theorem opens_code_of_suffix {text after : Text} (h : '#' :: after <:+ text.flatMap escapeChar) :
    "35;".toList <+: after ∨ "quot;".toList <+: after := by
  induction text with
  | nil => simp at h
  | cons c rest ih =>
    rw [List.flatMap_cons, escapeChar] at h
    split at h
    · have hcode : "#35;".toList = ['#', '3', '5', ';'] := by decide
      simp only [hcode, List.cons_append, List.nil_append, List.suffix_cons_iff, List.cons.injEq,
        Char.reduceEq, false_and, false_or, true_and] at h
      obtain rfl | h := h
      · exact .inl (List.prefix_append _ _)
      · exact ih h
    · split at h
      · have hcode : "#quot;".toList = ['#', 'q', 'u', 'o', 't', ';'] := by decide
        simp only [hcode, List.cons_append, List.nil_append, List.suffix_cons_iff, List.cons.injEq,
          Char.reduceEq, false_and, false_or, true_and] at h
        obtain rfl | h := h
        · exact .inr (List.prefix_append _ _)
        · exact ih h
      · rename_i hhash _
        rw [List.singleton_append, List.suffix_cons_iff] at h
        obtain h | h := h
        · exact absurd (List.cons.inj h).1.symm hhash
        · exact ih h

/-- A label stands for its text on one line: nothing in it ends the quotes or the line, each `#` in
it opens one of the two codes, and decoding it from left to right gives the text on one line. -/
theorem escape_reversible (text : String) :
    ('"' ∉ (escape text).toList ∧ '\r' ∉ (escape text).toList ∧ '\n' ∉ (escape text).toList) ∧
      (∀ front after, (escape text).toList = front ++ '#' :: after →
        "35;".toList <+: after ∨ "quot;".toList <+: after) ∧
      (∀ line, OnOneLine text.toList line ↔ unescape (escape text).toList = line) ∧
      ∀ other, escape text = escape other ↔ SameLine text other := by
  have hcoded : (escape text).toList = (flatten text.toList).flatMap escapeChar :=
    String.toList_ofList
  refine ⟨⟨quote_not_mem_escape text, ?_, ?_⟩, fun front after hafter => ?_, fun line => ?_,
    fun other => escape_eq_escape_iff⟩
  · exact fun hreturn => (unbroken_escape text _ hreturn).2 rfl
  · exact (unbroken_escape text).feed_not_mem
  · rw [hcoded] at hafter
    exact opens_code_of_suffix ⟨front, hafter.symm⟩
  · rw [hcoded, unescape_flatMap, onOneLine_iff]

/-- A text that is written like a code is not taken for one. -/
theorem escape_quote_and_code : escape "\"#quot;" = "#quot;#35;quot;" ∧
    ("35;".toList <+: "35;quot;".toList ∨ "quot;".toList <+: "35;quot;".toList) ∧
    unescape "#quot;#35;quot;".toList = "\"#quot;".toList := by
  have hlabel : escape "\"#quot;" = "#quot;#35;quot;" := by decide +kernel
  obtain ⟨-, hcodes, hdecoded, -⟩ := escape_reversible "\"#quot;"
  rw [hlabel] at hcodes hdecoded
  exact ⟨hlabel, hcodes "#quot;".toList _ (by decide), 
    (hdecoded _).mp (onOneLine_iff.mpr (by decide +kernel))⟩

end Label
end DiagramSync
