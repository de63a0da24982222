import DiagramSync.Proofs.Check.Delimiters
import DiagramSync.Proofs.Diagram.Identifier
import DiagramSync.Proofs.Diagram.Plain
import Mathlib.Data.List.TakeWhile

/-!
The statements of data models, as they are rendered, have no fault, as long as the types of
attributes hold no brackets but a pair at their end.
-/

namespace DiagramSync

open Text Markup

/-- Brackets stand nowhere in the text but as a pair at its end. -/
def Attribute.BracketsAtEnd (type : String) : Prop :=
  ∃ base : Text, '[' ∉ base ∧ ']' ∉ base ∧
    (type.toList = base ∨ type.toList = base ++ ['[', ']'])

namespace DataModelCheck

/-! ### Names and types -/

theorem isWord_iff {inner : Char → Bool} {text : Text} : isWord inner text = true ↔
    text ≠ [] ∧ (∀ c ∈ text.head?, (c.isAlpha || c == '_') = true) ∧
      ∀ c ∈ text.tail, inner c = true := by
  cases text <;> simp [isWord]

theorem isName_iff {text : Text} : isName text = true ↔ Label.IsIdentifier text := by
  cases text with
  | nil => simp [isName, isWord, Label.IsIdentifier]
  | cons c rest =>
    simp [isName, isWord, Label.IsIdentifier, isAsciiAlphanum_iff, Char.isAlpha, Char.isUpper,
      Char.isLower, Char.le_def, or_assoc]

theorem isWord_word (brackets : Bool) (text : String) :
    isWord (DataModel.isMarkupChar brackets) (DataModel.word brackets text).toList = true := by
  refine isWord_iff.mpr ⟨DataModel.word_ne_nil brackets text, ?_, fun c hc =>
    DataModel.isMarkupChar_of_mem_word c (List.mem_of_mem_tail hc)⟩
  rw [DataModel.word, String.toList_ofList]
  split
  · decide
  · rename_i c rest heq
    split
    · rename_i hfirst
      rw [heq]
      simpa using hfirst
    · simp

theorem isType_word (type : String) : isType (DataModel.word true type).toList = true := by
  have hword := isWord_word true type
  have hchars : DataModel.isMarkupChar true = fun c => isAsciiAlphanum c || c == '_' || c == '-' ||
      c == '[' || c == ']' := by
    funext c
    simp [DataModel.isMarkupChar, Label.isIdChar, Bool.or_assoc]
  rwa [hchars] at hword

theorem isName_word (name : String) : isName (DataModel.word false name).toList = true := by
  have hword := isWord_word false name
  have hchars : DataModel.isMarkupChar false =
      fun c => isAsciiAlphanum c || c == '_' || c == '-' := by
    funext c
    simp [DataModel.isMarkupChar, Label.isIdChar]
  rwa [hchars] at hword

theorem not_mem_word {brackets : Bool} {text : String} {c : Char}
    (hc : DataModel.isMarkupChar brackets c = false) :
    c ∉ (DataModel.word brackets text).toList := by
  intro hmem
  simp [DataModel.isMarkupChar_of_mem_word c hmem] at hc

theorem isWord_word_toList (brackets : Bool) (text : String) :
    IsWord (DataModel.word brackets text).toList := by
  refine ⟨DataModel.word_ne_nil brackets text, fun c hc => ?_⟩
  have hchar := DataModel.isMarkupChar_of_mem_word c hc
  simp only [DataModel.isMarkupChar, Bool.or_eq_true, Bool.and_eq_true, beq_iff_eq] at hchar
  obtain hid | ⟨-, rfl | rfl⟩ := hchar
  · exact Label.isWhite_of_isIdChar hid
  · decide
  · decide

theorem balanced_of_isId {id : Text} (h : Label.IsId id) : Delimiters.Balanced id :=
  .plain fun c hc => Delimiters.isDelimiter_eq_false (by decide) (h.2 c hc)

/-! ### Attributes -/

theorem words_attributeLine (attr : Attribute) : words (DataModel.attributeLine attr).toList =
    (DataModel.word true attr.type).toList :: (DataModel.word false attr.name).toList ::
      words (DataModel.keyMarks attr).toList := by
  have htype : IsWord (DataModel.word true attr.type).toList := isWord_word_toList _ _
  have hname : IsWord (DataModel.word false attr.name).toList := isWord_word_toList _ _
  have hline : (DataModel.attributeLine attr).toList = "        ".toList ++
      ((DataModel.word true attr.type).toList ++ ' ' :: ((DataModel.word false attr.name).toList ++
        (DataModel.keyMarks attr).toList)) := by
    simp [DataModel.attributeLine]
  have hmarks : (DataModel.keyMarks attr).toList = [] ∨
      ∃ rest, (DataModel.keyMarks attr).toList = ' ' :: rest := by
    rw [DataModel.keyMarks]
    split
    · exact .inr ⟨_, rfl⟩
    · exact .inr ⟨_, rfl⟩
    · exact .inr ⟨_, rfl⟩
    · exact .inl rfl
  rw [hline, words_append_white (by decide), htype.words_append (by decide)]
  obtain hnil | ⟨rest, hcons⟩ := hmarks
  · rw [hnil, List.append_nil, hname.words_eq, words_nil]
  · rw [hcons, hname.words_append (by decide)]
    exact congrArg _ (congrArg _ (words_append_cons (by decide) [] rest).symm)

theorem keyFaults_keyMarks (line : Nat) (attr : Attribute) :
    keyFaults line (words (DataModel.keyMarks attr).toList) = [] := by
  rw [DataModel.keyMarks]
  split <;> rfl

theorem attributeFaults_attributeLine (line : Nat) (attr : Attribute) :
    attributeFaults line (trim (DataModel.attributeLine attr).toList) = [] := by
  have hquote : '"' ∉ (DataModel.attributeLine attr).toList := by
    have hmarks : '"' ∉ (DataModel.keyMarks attr).toList := by
      rw [DataModel.keyMarks]
      split <;> decide
    simp only [DataModel.attributeLine, String.toList_append, List.mem_append, not_or]
    exact ⟨⟨⟨⟨by decide, not_mem_word (by decide)⟩, by decide⟩, not_mem_word (by decide)⟩, hmarks⟩
  have hdeclaration : declaration (trim (DataModel.attributeLine attr).toList) =
      trim (DataModel.attributeLine attr).toList := by
    rw [declaration, List.takeWhile_eq_self_iff]
    intro c hc
    rw [bne_iff_ne]
    rintro rfl
    exact hquote (mem_of_mem_trim hc)
  rw [attributeFaults, hdeclaration, words_trim, words_attributeLine]
  simp [isType_word, isName_word, keyFaults_keyMarks]

/-- Of delimiters a type holds no others than the pair of brackets at its end. -/
theorem filter_word {type : String} (h : Attribute.BracketsAtEnd type) :
    (DataModel.word true type).toList.filter Delimiters.isDelimiter = [] ∨
      (DataModel.word true type).toList.filter Delimiters.isDelimiter = ['[', ']'] := by
  let kept (c : Char) : Char := if DataModel.isMarkupChar true c then c else '_'
  have hword : (DataModel.word true type).toList.filter Delimiters.isDelimiter =
      (type.toList.map kept).filter Delimiters.isDelimiter := by
    have hline : Delimiters.isDelimiter '_' = false := by decide
    rw [DataModel.word, String.toList_ofList]
    split
    · rename_i heq
      simp [kept, heq, hline]
    · rename_i heq
      split
      · rfl
      · simp [hline, kept]
  have hbase : ∀ base : Text, '[' ∉ base → ']' ∉ base →
      (base.map kept).filter Delimiters.isDelimiter = [] := by
    intro base hopen hclose
    rw [List.filter_eq_nil_iff, List.forall_mem_map]
    intro c hc
    have hid : Label.isIdChar (kept c) = true := by
      simp only [kept]
      split
      · rename_i hchar
        simp only [DataModel.isMarkupChar, Bool.or_eq_true, Bool.and_eq_true, beq_iff_eq] at hchar
        obtain hid | ⟨-, rfl | rfl⟩ := hchar
        · exact hid
        · exact absurd hc hopen
        · exact absurd hc hclose
      · decide
    rw [Delimiters.isDelimiter_eq_false (by decide) hid]
    decide
  obtain ⟨base, hopen, hclose, hplain | hpair⟩ := h
  · left
    rw [hword, hplain, hbase base hopen hclose]
  · right
    rw [hword, hpair, List.map_append, List.filter_append, hbase base hopen hclose]
    decide

theorem clear_attributeLine {attr : Attribute} (h : Attribute.BracketsAtEnd attr.type) :
    Delimiters.Clear .entityRelationship (DataModel.attributeLine attr).toList := by
  have hname : ∀ c ∈ (DataModel.word false attr.name).toList,
      Delimiters.isDelimiter c = false := fun c hc =>
    Delimiters.isDelimiter_eq_false (by decide) (DataModel.isMarkupChar_of_mem_word c hc)
  have hmarks : (DataModel.keyMarks attr).toList.filter Delimiters.isDelimiter = [] := by
    rw [DataModel.keyMarks]
    split <;> rfl
  have hfilter : (DataModel.attributeLine attr).toList.filter Delimiters.isDelimiter =
      (DataModel.word true attr.type).toList.filter Delimiters.isDelimiter := by
    have hindent : "        ".toList.filter Delimiters.isDelimiter = [] := by decide
    have hspace : " ".toList.filter Delimiters.isDelimiter = [] := by decide
    have hnone : (DataModel.word false attr.name).toList.filter Delimiters.isDelimiter = [] :=
      List.filter_eq_nil_iff.mpr fun c hc => by simp [hname c hc]
    simp only [DataModel.attributeLine, String.toList_append, List.filter_append, hmarks, hindent,
      hspace, hnone, List.nil_append, List.append_nil]
  intro line opened
  rw [← Delimiters.scanChars_filter, Delimiters.view,
    Delimiters.filter_blankToken (words_attributeLine attr) hname, hfilter]
  obtain hnone | hpair := filter_word h
  · rw [hnone]
    rfl
  · rw [hpair]
    rfl

/-! ### Statements -/

theorem leads_attribute (attr : Attribute) :
    Leads lineFaults true true [(DataModel.attributeLine attr).toList] := by
  intro start rest
  have hstatement : trim (DataModel.attributeLine attr).toList ≠ ['\x7d'] := by
    intro heq
    have hwords := congrArg words heq
    rw [words_trim, words_attributeLine, (by decide : IsWord ['\x7d']).words_eq] at hwords
    simp at hwords
  simp [lineFaults, hstatement, attributeFaults_attributeLine]

theorem nameFaults_eq_nil {name : Text} (h : isName name = true) (line : Nat) :
    nameFaults line name = [] := by
  rw [nameFaults, if_pos h]

theorem leads_name {id : Text} (hid : Label.IsId id) (hname : isName id = true) :
    Leads lineFaults false false ["    ".toList ++ id] := by
  intro start rest
  have hword := isWord_of_isId hid
  have htrim : trim ("    ".toList ++ id) = id := by
    have htrim := hword.trim_append (by decide : ∀ c ∈ "    ".toList, isWhite c = true)
      (List.forall_mem_nil _)
    rwa [List.append_nil] at htrim
  have hbrace : stripSuffix? ['\x7b'] id = none := by
    rw [Option.eq_none_iff_forall_not_mem]
    intro front hfront
    rw [Option.mem_def, stripSuffix?_eq_some_iff] at hfront
    exact absurd (hid.2 '\x7b' (by simp [hfront])) (by decide)
  simp only [numbered_cons, numbered_nil, List.cons_append, List.nil_append, lineFaults, htrim,
    hbrace, statementFaults, hword.words_eq, nameFaults_eq_nil hname]
  rfl

theorem leads_entity {id : Text} (hid : Label.IsId id) (hname : isName id = true)
    {attributes : List Text} (hattributes : Leads lineFaults true true attributes) :
    Leads lineFaults false false
      (["    ".toList ++ (id ++ " \x7b".toList)] ++ attributes ++ ["    \x7d".toList]) := by
  have hfirst : Leads lineFaults false true ["    ".toList ++ (id ++ " \x7b".toList)] := by
    intro start rest
    have hword := isWord_of_isId hid
    have htrim : trim ("    ".toList ++ (id ++ " \x7b".toList)) = id ++ [' '] ++ ['\x7b'] := by
      have htrim := trim_between (by decide : ∀ c ∈ "    ".toList, isWhite c = true) hword [' ']
        (by decide : IsWord ['\x7b'])
      simpa using htrim
    have hspace : trim (id ++ [' ']) = id := by
      exact hword.trim_append (List.forall_mem_nil _) (by decide : ∀ c ∈ [' '], isWhite c = true)
    have hbrace : stripSuffix? ['\x7b'] (id ++ [' '] ++ ['\x7b']) = some (id ++ [' ']) :=
      stripSuffix?_eq_some_iff.mpr rfl
    simp only [numbered_cons, numbered_nil, List.cons_append, List.nil_append, lineFaults, htrim,
      hbrace, hspace, nameFaults_eq_nil hname]
    rfl
  have hlast : Leads lineFaults true false ["    \x7d".toList] := by
    intro start rest
    have htrim : trim "    \x7d".toList = ['\x7d'] := by decide
    simp only [numbered_cons, numbered_nil, List.cons_append, List.nil_append, lineFaults, htrim,
      if_true]
  exact (hfirst.append hattributes).append hlast

/-! ### Relationships -/

section Relationship

variable {source target : Text} (cardinality : Cardinality) (label : Text)

/-- The line of a relationship. -/
def relationshipLine (source target : Text) (cardinality : Cardinality) (label : Text) : Text :=
  ("    ".toList ++ (source ++ [' '])) ++ (cardinality.token.toList ++
    (' ' :: (target ++ ' ' :: ':' :: ' ' :: '"' :: (label ++ ['"']))))

theorem words_relationshipLine (hsource : IsWord source) (htarget : IsWord target) :
    ∃ first rest, words (relationshipLine source target cardinality label) =
      source :: cardinality.token.toList :: target :: [':'] :: first :: rest := by
  have htoken : IsWord cardinality.token.toList := by
    cases cardinality <;> decide
  obtain ⟨word, rest, hlabel⟩ := exists_words_cons (by decide : isWhite '"' = false)
    (label ++ ['"'])
  refine ⟨'"' :: word, rest, ?_⟩
  have hcolon : words (':' :: ' ' :: '"' :: (label ++ ['"'])) = [':'] :: ('"' :: word) :: rest :=
    ((by decide : IsWord [':']).words_append (by decide) _).trans (congrArg _ hlabel)
  rw [relationshipLine, List.append_assoc, words_append_white (by decide), List.append_assoc,
    List.singleton_append, hsource.words_append (by decide), htoken.words_append (by decide),
    htarget.words_append (by decide), hcolon]

theorem leads_relationshipLine (hsource : Label.IsId source) (hsourceName : isName source = true)
    (htarget : Label.IsId target) (htargetName : isName target = true) :
    Leads lineFaults false false [relationshipLine source target cardinality label] := by
  intro start rest
  obtain ⟨first, others, hwords⟩ := words_relationshipLine cardinality label
    (isWord_of_isId hsource) (isWord_of_isId htarget)
  have hbrace : stripSuffix? ['\x7b'] (trim (relationshipLine source target cardinality label)) =
      none := by
    have hline : relationshipLine source target cardinality label =
        "    ".toList ++ (source ++ (' ' :: (cardinality.token.toList ++
          ' ' :: (target ++ ' ' :: ':' :: ' ' :: '"' :: label)) ++ ['"'])) := by
      simp [relationshipLine]
    rw [hline, trim_between (by decide) (isWord_of_isId hsource) _ (by decide),
      Option.eq_none_iff_forall_not_mem]
    intro front hfront
    rw [Option.mem_def, stripSuffix?_eq_some_iff, ← List.append_assoc] at hfront
    exact absurd (List.append_inj_right' hfront rfl) (by decide)
  simp [lineFaults, hbrace, statementFaults, words_trim, hwords, nameFaults_eq_nil hsourceName,
    nameFaults_eq_nil htargetName, hasLabel]

theorem clear_relationshipLine (hsource : Label.IsId source) (htarget : Label.IsId target)
    {label : Text} (hlabel : '"' ∉ label) :
    Delimiters.Clear .entityRelationship
      (relationshipLine source target cardinality label) := by
  obtain ⟨first, others, hwords⟩ := words_relationshipLine cardinality label
    (isWord_of_isId hsource) (isWord_of_isId htarget)
  have hdashes : contains "--".toList cardinality.token.toList = true := by
    cases cardinality <;> decide
  obtain ⟨p, pattern, htoken, hp⟩ : ∃ p pattern, cardinality.token.toList = p :: pattern ∧
      (Label.isIdChar p = false ∧ p ≠ ' ') := by
    cases cardinality <;> exact ⟨_, _, rfl, by decide⟩
  have hfront : p ∉ "    ".toList ++ (source ++ [' ']) := by
    have hid : p ∉ source := fun hmem => by simp [hsource.2 p hmem] at hp
    simp [hid, hp.2]
  have hview : Delimiters.view .entityRelationship
      (relationshipLine source target cardinality label) =
        "    ".toList ++ (source ++ [' ']) ++ [' '] ++
          (' ' :: (target ++ ' ' :: ':' :: ' ' :: '"' :: (label ++ ['"']))) := by
    rw [Delimiters.view, Delimiters.blankToken, hwords]
    dsimp only
    rw [hdashes, Bool.true_or, if_pos rfl, replaceFirst, relationshipLine, htoken,
      ← List.append_assoc, splitOnce?_append hfront]
  have hback : Delimiters.Balanced
      (' ' :: (target ++ ' ' :: ':' :: ' ' :: '"' :: (label ++ ['"']))) := by
    have hparts : Delimiters.Balanced ([' '] ++ (target ++ (" : ".toList ++
        '"' :: (label ++ ['"'])))) :=
      .append (.plain (by decide))
        (.append (balanced_of_isId htarget) (.append (.plain (by decide)) (.quoted hlabel)))
    simpa using hparts
  apply Delimiters.Balanced.clear
  rw [hview]
  exact .append (.append (.append (.plain (by decide))
    (.append (balanced_of_isId hsource) (.plain (by decide)))) (.plain (by decide))) hback

end Relationship
end DataModelCheck

/-! ### Diagrams -/

namespace DataModel

open DataModelCheck

theorem leads_entityLines {id : String} (hid : Label.IsId id.toList)
    (hname : isName id.toList = true) (attributes : List Attribute) :
    Leads lineFaults false false ((entityLines id attributes).map String.toList) := by
  have hattributes : Leads lineFaults true true
      ((attributes.map attributeLine).map String.toList) := by
    apply Leads.of_forall
    simp only [List.map_map, List.forall_mem_map]
    exact fun attr _ => leads_attribute attr
  cases attributes with
  | nil => simpa [entityLines] using leads_name hid hname
  | cons first rest => simpa [entityLines] using leads_entity hid hname hattributes

theorem leads_scan_entityLines {id : String} (hid : Label.IsId id.toList)
    {attributes : List Attribute}
    (hattributes : ∀ attr ∈ attributes, Attribute.BracketsAtEnd attr.type)
    (opened : List Delimiters.Opener) :
    Leads (Delimiters.scan .entityRelationship) opened opened
      ((entityLines id attributes).map String.toList) := by
  have hlines : ∀ opened, Leads (Delimiters.scan .entityRelationship) opened opened
      ((attributes.map attributeLine).map String.toList) := by
    intro opened
    apply Leads.of_forall
    simp only [List.map_map, List.forall_mem_map]
    exact fun attr hattr => (clear_attributeLine (hattributes attr hattr)).leads opened
  have hword := isWord_of_isId hid
  have hbalanced : Delimiters.Balanced ("    ".toList ++ id.toList) :=
    .append (.plain (by decide)) (balanced_of_isId hid)
  cases attributes with
  | nil =>
    have hwords : words ("    ".toList ++ id.toList) = [id.toList] := by
      rw [words_append_white (by decide), hword.words_eq]
    have hview : Delimiters.view .entityRelationship ("    ".toList ++ id.toList) =
        "    ".toList ++ id.toList := by
      rw [Delimiters.view, Delimiters.blankToken, hwords]
    have hclear : Delimiters.Clear .entityRelationship ("    ".toList ++ id.toList) := by
      apply Delimiters.Balanced.clear
      rwa [hview]
    simpa [entityLines] using hclear.leads opened
  | cons first rest =>
    have hwords : words ("    ".toList ++ id.toList ++ ' ' :: ['\x7b']) =
        [id.toList, ['\x7b']] := by
      rw [List.append_assoc, words_append_white (by decide), hword.words_append (by decide)]
      exact congrArg _ (by decide : IsWord ['\x7b']).words_eq
    have hview : Delimiters.view .entityRelationship
        ("    ".toList ++ id.toList ++ ' ' :: ['\x7b']) =
          "    ".toList ++ id.toList ++ ' ' :: ['\x7b'] := by
      rw [Delimiters.view, Delimiters.blankToken, hwords]
    have hfirst : ∀ line, Delimiters.scanChars line opened false (Delimiters.view
        .entityRelationship ("    ".toList ++ id.toList ++ ' ' :: ['\x7b'])) =
          .ok (('\x7b', line) :: opened, false) := by
      intro line
      rw [hview, hbalanced.scanChars_append]
      rfl
    have hlast : ∀ line opener, Delimiters.scanChars line (('\x7b', opener) :: opened) false
        (Delimiters.view .entityRelationship "    \x7d".toList) = .ok (opened, false) := by
      intro line opener
      have hview : Delimiters.view .entityRelationship "    \x7d".toList = "    \x7d".toList := by
        decide
      rw [hview]
      rfl
    simpa [entityLines] using Delimiters.leads_braced hfirst hlines hlast

theorem isSignificant_of_mem_entityLines {id : String} (hid : Label.IsId id.toList)
    {attributes : List Attribute} {line : String} (hline : line ∈ entityLines id attributes) :
    isSignificant line.toList = true := by
  cases attributes with
  | nil =>
    rw [entityLines, List.mem_singleton] at hline
    rw [hline, String.toList_append, ← List.append_nil id.toList]
    exact isSignificant_of_isId (by decide) hid []
  | cons first rest =>
    simp only [entityLines, List.mem_append, List.mem_singleton, List.mem_map] at hline
    obtain (rfl | ⟨attr, -, rfl⟩) | rfl := hline
    · simp only [String.toList_append, List.append_assoc]
      exact isSignificant_of_isId (by decide) hid _
    · simp only [attributeLine, String.toList_append, List.append_assoc]
      exact isSignificant_of_isWord (by decide) (isWord_word_toList _ _)
        (not_mem_word (by decide)) _
    · decide

theorem exists_relationshipLine {names ids : List String} {relationship : Relationship}
    {line : String} (h : relationshipLine? (names.zip ids) relationship = some line) :
    ∃ source ∈ ids, ∃ target ∈ ids, line.toList = DataModelCheck.relationshipLine source.toList
      target.toList relationship.cardinality (Label.escape relationship.label).toList := by
  obtain ⟨source, hsource, h⟩ := Option.bind_eq_some_iff.mp h
  obtain ⟨target, htarget, h⟩ := Option.bind_eq_some_iff.mp h
  obtain rfl := Option.some.inj h
  refine ⟨source, mem_of_idOf? hsource, target, mem_of_idOf? htarget, ?_⟩
  simp [DataModelCheck.relationshipLine]

section Lines

variable {entities : List Entity}

theorem exists_relationshipLine_of_mem {line : String}
    (h : line ∈ entities.flatMap fun entity => entity.relationships.filterMap
      (relationshipLine? ((entities.map Entity.name).zip
        (Label.identifiers (entities.map Entity.name))))) :
    ∃ source ∈ Label.identifiers (entities.map Entity.name),
      ∃ target ∈ Label.identifiers (entities.map Entity.name), ∃ cardinality label,
        line.toList = DataModelCheck.relationshipLine source.toList target.toList cardinality
          (Label.escape label).toList := by
  obtain ⟨entity, -, hline⟩ := List.mem_flatMap.mp h
  obtain ⟨relationship, -, hline⟩ := List.mem_filterMap.mp hline
  obtain ⟨source, hsource, target, htarget, htext⟩ := exists_relationshipLine hline
  exact ⟨source, hsource, target, htarget, _, _, htext⟩

theorem isSignificant_of_mem_lines {line : String} (h : line ∈ lines entities) :
    isSignificant line.toList = true := by
  simp only [lines, List.cons_append, List.mem_cons, List.mem_append] at h
  obtain rfl | hline | hline := h
  · decide
  · obtain ⟨pair, hpair, hline⟩ := List.mem_flatMap.mp hline
    exact isSignificant_of_mem_entityLines
      (Label.isId_of_mem_identifiers (List.of_mem_zip hpair).1) hline
  · obtain ⟨source, hsource, target, -, cardinality, label, htext⟩ :=
      exists_relationshipLine_of_mem hline
    rw [htext, DataModelCheck.relationshipLine, List.append_assoc, List.append_assoc]
    exact isSignificant_of_isId (by decide) (Label.isId_of_mem_identifiers hsource) _

/-- What comes through the lines of each entity and of each relationship unchanged comes through
the diagram. -/
theorem leads_lines {State : Type} {faults : State → List NumberedLine → List Fault}
    {state : State}
    (hentity : ∀ id ∈ Label.identifiers (entities.map Entity.name), ∀ entity ∈ entities,
      Leads faults state state ((entityLines id entity.attributes).map String.toList))
    (hrelationship : ∀ source ∈ Label.identifiers (entities.map Entity.name),
      ∀ target ∈ Label.identifiers (entities.map Entity.name), ∀ cardinality label,
        Leads faults state state [DataModelCheck.relationshipLine source.toList target.toList
          cardinality (Label.escape label).toList]) :
    Leads faults state state ((lines entities).tail.map String.toList) := by
  rw [lines, List.cons_append, List.tail_cons, List.map_append]
  apply Leads.append
  · rw [List.map_flatMap]
    refine .flatMap fun pair hpair => ?_
    obtain ⟨hid, hmem⟩ := List.of_mem_zip hpair
    exact hentity pair.1 hid pair.2 hmem
  · apply Leads.of_forall
    rw [List.forall_mem_map]
    intro line hline
    obtain ⟨source, hsource, target, htarget, cardinality, label, htext⟩ :=
      exists_relationshipLine_of_mem hline
    rw [htext]
    exact hrelationship source hsource target htarget cardinality label

end Lines

/-- Whatever the entities are called and how they are related, their diagram has no fault. -/
theorem faults_markup (limits : Limits) {entities : List Entity}
    (htypes : ∀ entity ∈ entities, ∀ attr ∈ entity.attributes,
      Attribute.BracketsAtEnd attr.type) :
    faults .entityRelationship (render limits entities).markup.toList = [] := by
  have hid : ∀ id ∈ Label.identifiers (entities.map Entity.name), Label.IsId id.toList :=
    fun _ => Label.isId_of_mem_identifiers
  have hname : ∀ id ∈ Label.identifiers (entities.map Entity.name), isName id.toList = true :=
    fun _ hid => isName_iff.mpr (Label.isIdentifier_of_mem_identifiers hid)
  have hdelimiters : Leads (Delimiters.scan .entityRelationship) [] []
      ((lines entities).tail.map String.toList) := by
    apply leads_lines
    · intro id hmem entity hentity
      exact leads_scan_entityLines (hid id hmem) (htypes entity hentity) []
    · intro source hsource target htarget cardinality label
      exact (clear_relationshipLine cardinality (hid source hsource) (hid target htarget)
        (Label.quote_not_mem_escape label)).leads []
  have hstatements : Leads lineFaults false false ((lines entities).tail.map String.toList) := by
    apply leads_lines
    · intro id hmem entity _
      exact leads_entityLines (hid id hmem) (hname id hmem) _
    · intro source hsource target htarget cardinality label
      exact leads_relationshipLine cardinality _ (hid source hsource) (hname source hsource)
        (hid target htarget) (hname target htarget)
  have hlines : ∀ line ∈ "erDiagram".toList :: (lines entities).tail.map String.toList,
      Unbroken line ∧ isSignificant line = true := by
    have hall : ∀ line ∈ (lines entities).map String.toList,
        Unbroken line ∧ isSignificant line = true := by
      rw [List.forall_mem_map]
      exact fun line hline =>
        ⟨(plainLine_of_mem_lines hline).unbroken, isSignificant_of_mem_lines hline⟩
    exact hall
  have hmarkup : (render limits entities).markup.toList =
      ("erDiagram".toList :: (lines entities).tail.map String.toList).flatMap
        fun line => line ++ ['\n'] :=
    Diagram.toList_join_lines (lines entities)
  rw [hmarkup, faults_flatMap_feed hlines (by decide), bodyFaults, Delimiters.check_eq_scan,
    hdelimiters.eq_nil rfl]
  exact hstatements.eq_nil rfl 2

end DataModel
end DiagramSync
