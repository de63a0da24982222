import DiagramSync.Proofs.Check.Markup

/-!
Balanced text: the scan for delimiters passes over it and is where it was before. Characters that
are no delimiters do not count at all.
-/

namespace DiagramSync.Delimiters

open Text Markup

/-- A quote or a bracket. -/
def isDelimiter (c : Char) : Bool :=
  c == '"' || isOpener c || isCloser c

/-! ### Characters -/

theorem isDelimiter_eq_false {keep : Char → Bool}
    (hkeep : ['"', '(', '[', '\x7b', ')', ']', '\x7d'].any keep = false) {c : Char}
    (hc : keep c = true) : isDelimiter c = false := by
  rw [List.any_eq_false] at hkeep
  have hne : ∀ d ∈ ['"', '(', '[', '\x7b', ')', ']', '\x7d'], c ≠ d := by
    rintro d hd rfl
    exact hkeep c hd hc
  simp only [List.forall_mem_cons] at hne
  simp [isDelimiter, isOpener, isCloser, hne]

theorem filter_eq_nil {keep : Char → Bool}
    (hkeep : ['"', '(', '[', '\x7b', ')', ']', '\x7d'].any keep = false) {text : Text}
    (htext : ∀ c ∈ text, keep c = true) : text.filter isDelimiter = [] := by
  rw [List.filter_eq_nil_iff]
  intro c hc
  simp [isDelimiter_eq_false hkeep (htext c hc)]

theorem scanChars_cons_plain {c : Char} (hc : isDelimiter c = false) (line : Nat)
    (opened : List Opener) (quoted : Bool) (rest : Text) :
    scanChars line opened quoted (c :: rest) = scanChars line opened quoted rest := by
  simp only [isDelimiter, Bool.or_eq_false_iff] at hc
  obtain ⟨⟨hquote, hopener⟩, hcloser⟩ := hc
  cases quoted <;> simp [scanChars, hquote, hopener, hcloser]

theorem scanChars_filter (line : Nat) (opened : List Opener) (quoted : Bool) (text : Text) :
    scanChars line opened quoted (text.filter isDelimiter) = scanChars line opened quoted text := by
  induction text generalizing opened quoted with
  | nil => rfl
  | cons c rest ih =>
    cases hc : isDelimiter c with
    | false => rw [List.filter_cons_of_neg (by simp [hc]), scanChars_cons_plain hc, ih]
    | true =>
      rw [List.filter_cons_of_pos hc]
      simp only [scanChars, ih]

theorem scanChars_quoted {label : Text} (hlabel : '"' ∉ label) (line : Nat)
    (opened : List Opener) (rest : Text) :
    scanChars line opened true (label ++ '"' :: rest) = scanChars line opened false rest := by
  induction label with
  | nil => rfl
  | cons c others ih =>
    obtain ⟨hc, hothers⟩ : '"' ≠ c ∧ '"' ∉ others := by simpa using hlabel
    have hquote : (c == '"') = false := by simpa using Ne.symm hc
    simpa [scanChars, hquote] using ih hothers

/-- Brackets close each other, and quotes come in pairs. -/
inductive Balanced : Text → Prop where
  | plain {text : Text} : (∀ c ∈ text, isDelimiter c = false) → Balanced text
  | quoted {label : Text} : '"' ∉ label → Balanced ('"' :: (label ++ ['"']))
  | bracketed {opener closer : Char} {inner : Text} : isOpener opener = true →
      closerOf opener = closer → Balanced inner → Balanced (opener :: (inner ++ [closer]))
  | append {a b : Text} : Balanced a → Balanced b → Balanced (a ++ b)

theorem Balanced.scanChars_append {text : Text} (h : Balanced text) (line : Nat)
    (opened : List Opener) (rest : Text) :
    scanChars line opened false (text ++ rest) = scanChars line opened false rest := by
  induction h generalizing opened rest with
  | @plain text hplain =>
    induction text with
    | nil => rfl
    | cons c others ih =>
      rw [List.forall_mem_cons] at hplain
      rw [List.cons_append, scanChars_cons_plain hplain.1, ih hplain.2]
  | @quoted label hlabel =>
    rw [List.cons_append, List.append_assoc]
    exact scanChars_quoted hlabel line opened rest
  | @bracketed opener closer inner hopener hcloser _ ih =>
    have hcases : opener = '(' ∨ opener = '[' ∨ opener = '\x7b' := by
      simpa [isOpener, or_assoc] using hopener
    subst hcloser
    rw [List.cons_append, List.append_assoc]
    have hopen : scanChars line opened false (opener :: (inner ++ ([closerOf opener] ++ rest))) =
        scanChars line ((opener, line) :: opened) false (inner ++ ([closerOf opener] ++ rest)) := by
      obtain rfl | rfl | rfl := hcases <;> rfl
    rw [hopen, ih]
    obtain rfl | rfl | rfl := hcases <;> rfl
  | append _ _ iha ihb => rw [List.append_assoc, iha, ihb]

/-! ### Lines -/

/-- A line of markup of the kind that leaves nothing open and closes nothing. -/
def Clear (kind : Kind) (text : Text) : Prop :=
  ∀ line opened, scanChars line opened false (view kind text) = .ok (opened, false)

theorem Balanced.clear {kind : Kind} {text : Text} (h : Balanced (view kind text)) :
    Clear kind text := by
  intro line opened
  rw [← List.append_nil (view kind text), h.scanChars_append]
  rfl

/-- The scan over lines of markup of the kind. -/
def scan (kind : Kind) (opened : List Opener) (lines : List NumberedLine) : List Fault :=
  scanLines opened (lines.map fun (line, text) => (line, view kind text))

theorem check_eq_scan (kind : Kind) (lines : List NumberedLine) :
    check kind lines = scan kind [] lines := rfl

theorem Clear.leads {kind : Kind} {text : Text} (h : Clear kind text) (opened : List Opener) :
    Leads (scan kind) opened opened [text] := by
  intro start rest
  simp [scan, scanLines, h start opened]

theorem leads_braced {kind : Kind} {first last : Text} {lines : List Text}
    {opened : List Opener}
    (hfirst : ∀ line, scanChars line opened false (view kind first) =
      .ok (('\x7b', line) :: opened, false))
    (hlines : ∀ opened, Leads (scan kind) opened opened lines)
    (hlast : ∀ line opener, scanChars line (('\x7b', opener) :: opened) false (view kind last) =
      .ok (opened, false)) :
    Leads (scan kind) opened opened (first :: lines ++ [last]) := by
  intro start rest
  have hinner := hlines (('\x7b', start) :: opened) (start + 1)
    ((start + 1 + lines.length, last) :: rest)
  rw [List.cons_append, numbered_cons, numbered_append, List.cons_append, List.append_assoc]
  simp only [scan, List.map_cons, scanLines, hfirst, Bool.false_eq_true, if_false] at hinner ⊢
  refine hinner.trans ?_
  simp [hlast]

/-! ### Tokens -/

/-- A word between others is blanked without effect if it holds no delimiter. -/
theorem filter_blankToken {text first second : Text} {others : List Text}
    (hwords : words text = first :: second :: others)
    (hsecond : ∀ c ∈ second, isDelimiter c = false) :
    (blankToken text).filter isDelimiter = text.filter isDelimiter := by
  have hreplace : (replaceFirst second [' '] text).filter isDelimiter =
      text.filter isDelimiter := by
    rw [replaceFirst]
    cases hfound : splitOnce? second text with
    | none => rfl
    | some found =>
      obtain ⟨before, after⟩ := found
      have hnone : second.filter isDelimiter = [] :=
        List.filter_eq_nil_iff.mpr fun c hc => by simp [hsecond c hc]
      have hspace : [' '].filter isDelimiter = [] := by decide
      rw [eq_append_of_splitOnce?_eq_some hfound]
      simp only [List.filter_append, hnone, hspace]
  rw [blankToken, hwords]
  cases others with
  | nil => rfl
  | cons third rest =>
    dsimp only
    split
    · exact hreplace
    · rfl

end DiagramSync.Delimiters
