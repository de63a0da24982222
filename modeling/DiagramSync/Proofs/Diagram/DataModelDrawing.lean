import DiagramSync.Proofs.Check.DataModel
import DiagramSync.Proofs.Text.Search

/-!
What the markup of a data model draws. As with flowcharts, the markup is read line by line without
regard to what it was rendered from: first entities with their attributes, then relationships and
nothing else.
-/

namespace DiagramSync

open Text Markup

structure DrawnAttribute where
  type : String
  name : String
  isPrimaryKey : Bool
  isForeignKey : Bool
  deriving Repr, DecidableEq

structure DrawnEntity where
  id : String
  /-- What stands between the braces, if there are any. -/
  attributes : Option (List DrawnAttribute)
  deriving Repr, DecidableEq

structure DrawnRelationship where
  source : String
  target : String
  cardinality : Cardinality
  label : String
  deriving Repr, DecidableEq

/-- What the markup of a data model draws. -/
structure DrawnModel where
  entities : List DrawnEntity
  relationships : List DrawnRelationship
  deriving Repr, DecidableEq

/-! ### Reading lines -/

namespace DrawnAttribute

/-- Reads what marks an attribute as a primary and as a foreign key. -/
def keys? (text : Text) : Option (Bool × Bool) :=
  [("", false, false), (" PK", true, false), (" FK", false, true), (" PK, FK", true, true)].lookup
    (String.ofList text)

def ofText? (statement : Text) : Option DrawnAttribute := do
  let (type, rest) ← span1? (DataModel.isMarkupChar true) statement
  let rest ← stripPrefix? [' '] rest
  let (name, rest) ← span1? (DataModel.isMarkupChar false) rest
  let (isPrimaryKey, isForeignKey) ← keys? rest
  return ⟨String.ofList type, String.ofList name, isPrimaryKey, isForeignKey⟩

end DrawnAttribute

namespace DrawnEntity

/-- Reads the line that begins an entity: its identifier, and whether attributes follow. -/
def heading? (statement : Text) : Option (String × Bool) := do
  let (id, rest) ← span1? Label.isIdChar statement
  if rest = [] then return (String.ofList id, false)
  else if rest = " \x7b".toList then return (String.ofList id, true)
  else none

end DrawnEntity

namespace DrawnRelationship

def ofText? (statement : Text) : Option DrawnRelationship := do
  let (source, rest) ← span1? Label.isIdChar statement
  let rest ← stripPrefix? [' '] rest
  let (token, rest) ← span1? (fun c => !isWhite c) rest
  let cardinality ← Cardinality.ofToken? (String.ofList token)
  let rest ← stripPrefix? [' '] rest
  let (target, rest) ← span1? Label.isIdChar rest
  let rest ← stripPrefix? " : \"".toList rest
  let label ← stripSuffix? ['"'] rest
  if '"' ∈ label then none
  else return ⟨String.ofList source, String.ofList target, cardinality, String.ofList label⟩

end DrawnRelationship

/-! ### Reading diagrams -/

namespace DrawnModel

def cons (entity : DrawnEntity) (drawn : DrawnModel) : DrawnModel :=
  { drawn with entities := entity :: drawn.entities }

/-- Reads relationships and nothing else. -/
def relationships? (lines : List Text) : Option (List DrawnRelationship) :=
  lines.mapM fun text => DrawnRelationship.ofText? (trim text)

/-- Reads the lines that are left, given the entity whose braces are open. -/
def ofLines? (opened : Option (String × List DrawnAttribute)) : List Text → Option DrawnModel
  | [] => if opened.isNone then some ⟨[], []⟩ else none
  | text :: rest =>
    match opened with
    | some (id, attributes) =>
      if trim text = ['\x7d'] then (ofLines? none rest).map (cons ⟨id, some attributes⟩)
      else
        match DrawnAttribute.ofText? (trim text) with
        | some attr => ofLines? (some (id, attributes ++ [attr])) rest
        | none => none
    | none =>
      match DrawnEntity.heading? (trim text) with
      | some (id, true) => ofLines? (some (id, [])) rest
      | some (id, false) => (ofLines? none rest).map (cons ⟨id, none⟩)
      | none => (relationships? (text :: rest)).map fun relationships => ⟨[], relationships⟩

/-- Reads what the markup of a data model draws. -/
def ofMarkup? (markup : String) : Option DrawnModel :=
  match Text.lines markup.toList with
  | [] => none
  | first :: rest => if first = "erDiagram".toList then ofLines? none rest else none

end DrawnModel

/-! ### Rendered lines -/

/-- A word as it is drawn: a `_` stands for whatever is no ASCII letter or digit and not among the
characters in `others`, and one more stands in front if the word would not begin with a letter
or a `_`. -/
def drawnWord (others : Text) (text : String) : String :=
  let kept := text.toList.map fun c => if c.isAlphanum ∨ c ∈ others then c else '_'
  String.ofList (if kept.head?.any fun c => c.isAlpha || c == '_' then kept else '_' :: kept)

/-- The attribute as its line draws it. -/
def Attribute.drawn (attr : Attribute) : DrawnAttribute where
  type := drawnWord "_-[]".toList attr.type
  name := drawnWord "_-".toList attr.name
  isPrimaryKey := attr.isPrimaryKey
  isForeignKey := attr.isForeignKey

namespace DataModel

open DataModelCheck

theorem word_eq_drawnWord {brackets : Bool} {others : Text}
    (hkept : ∀ c, isMarkupChar brackets c = true ↔ c.isAlphanum = true ∨ c ∈ others)
    (text : String) : word brackets text = drawnWord others text := by
  simp only [word, drawnWord, hkept]
  cases text.toList.map fun c => if c.isAlphanum = true ∨ c ∈ others then c else '_' <;> rfl

theorem word_type (text : String) : word true text = drawnWord "_-[]".toList text :=
  word_eq_drawnWord (by simp [isMarkupChar, Label.isIdChar, Text.isAsciiAlphanum, or_assoc]) text

theorem word_name (text : String) : word false text = drawnWord "_-".toList text :=
  word_eq_drawnWord (by simp [isMarkupChar, Label.isIdChar, Text.isAsciiAlphanum, or_assoc]) text

theorem drawn_eq (attr : Attribute) : attr.drawn =
    ⟨word true attr.type, word false attr.name, attr.isPrimaryKey, attr.isForeignKey⟩ := by
  rw [word_type, word_name, Attribute.drawn]

theorem exists_keyMarks (attr : Attribute) : (keyMarks attr).toList = [] ∨
    ∃ marks, (keyMarks attr).toList = ' ' :: (marks ++ ['K']) := by
  rw [keyMarks]
  split
  · exact .inr ⟨"PK, F".toList, rfl⟩
  · exact .inr ⟨['P'], rfl⟩
  · exact .inr ⟨['F'], rfl⟩
  · exact .inl rfl

theorem trim_attributeLine (attr : Attribute) : trim (attributeLine attr).toList =
    (word true attr.type).toList ++ (' ' :: ((word false attr.name).toList ++
      (keyMarks attr).toList)) := by
  have htype := isWord_word_toList true attr.type
  have hname := isWord_word_toList false attr.name
  have hline : (attributeLine attr).toList = "        ".toList ++ ((word true attr.type).toList ++
      (' ' :: ((word false attr.name).toList ++ (keyMarks attr).toList))) := by
    simp [attributeLine]
  rw [hline]
  obtain hnone | ⟨marks, hmarks⟩ := exists_keyMarks attr
  · rw [hnone, List.append_nil, ← List.singleton_append,
      trim_between (by decide) htype [' '] hname]
  · have hend : ' ' :: ((word false attr.name).toList ++ ' ' :: (marks ++ ['K'])) =
        (' ' :: ((word false attr.name).toList ++ ' ' :: marks)) ++ ['K'] := by simp
    rw [hmarks, hend, trim_between (by decide) htype _ (by decide)]

theorem attribute_attributeLine (attr : Attribute) :
    DrawnAttribute.ofText? (trim (attributeLine attr).toList) = some attr.drawn := by
  have hkeys : DrawnAttribute.keys? (keyMarks attr).toList =
      some (attr.isPrimaryKey, attr.isForeignKey) := by
    rw [keyMarks]
    cases attr.isPrimaryKey <;> cases attr.isForeignKey <;> decide
  have hmarks : ∀ c ∈ (keyMarks attr).toList.head?, isMarkupChar false c = false := by
    rw [keyMarks]
    split <;> decide
  have hname := span1?_append (word_ne_nil false attr.name) isMarkupChar_of_mem_word hmarks
  rw [trim_attributeLine, DrawnAttribute.ofText?,
    span1?_append_cons (word_ne_nil true attr.type) isMarkupChar_of_mem_word (by decide)]
  simp [stripPrefix?, hname, hkeys, drawn_eq]

theorem trim_attributeLine_ne (attr : Attribute) : trim (attributeLine attr).toList ≠ ['\x7d'] := by
  intro heq
  obtain ⟨c, rest, htype⟩ := List.exists_cons_of_ne_nil (word_ne_nil true attr.type)
  have hc : isMarkupChar true c = true :=
    isMarkupChar_of_mem_word c (by rw [htype]; exact List.mem_cons_self)
  rw [trim_attributeLine, htype, List.cons_append] at heq
  rw [(List.cons.inj heq).1] at hc
  exact absurd hc (by decide)

section Entities

variable {id : Text} (hid : Label.IsId id)

include hid

theorem heading_name : DrawnEntity.heading? (trim ("    ".toList ++ id)) =
    some (String.ofList id, false) := by
  have htrim := (isWord_of_isId hid).trim_append (by decide : ∀ c ∈ "    ".toList, isWhite c = true)
    (List.forall_mem_nil _)
  rw [List.append_nil] at htrim
  rw [htrim, DrawnEntity.heading?, span1?_of_forall hid.1 hid.2]
  rfl

theorem heading_brace : DrawnEntity.heading? (trim ("    ".toList ++ (id ++ " \x7b".toList))) =
    some (String.ofList id, true) := by
  have htrim : trim ("    ".toList ++ (id ++ " \x7b".toList)) = id ++ ' ' :: ['\x7b'] :=
    trim_between (by decide) (isWord_of_isId hid) [' '] (by decide)
  rw [htrim, DrawnEntity.heading?, span1?_append_cons hid.1 hid.2 (by decide)]
  rfl

end Entities

section Relationships

variable {source target label : Text} (cardinality : Cardinality)

theorem trim_relationshipLine (hsource : Label.IsId source) :
    trim (relationshipLine source target cardinality label) =
      source ++ ' ' :: (cardinality.token.toList ++ ' ' :: (target ++ ' ' :: (": \"".toList ++
        (label ++ ['"'])))) := by
  have htrim := trim_between (by decide : ∀ c ∈ "    ".toList, isWhite c = true)
    (isWord_of_isId hsource) (' ' :: (cardinality.token.toList ++ ' ' :: (target ++
      ' ' :: (": \"".toList ++ label)))) (by decide : IsWord ['"'])
  simpa [relationshipLine] using htrim

theorem heading_relationshipLine (hsource : Label.IsId source) :
    DrawnEntity.heading? (trim (relationshipLine source target cardinality label)) = none := by
  rw [trim_relationshipLine cardinality hsource, DrawnEntity.heading?,
    span1?_append_cons hsource.1 hsource.2 (by decide)]
  cases cardinality <;> simp [Cardinality.token]

theorem relationship_relationshipLine (hsource : Label.IsId source) (htarget : Label.IsId target)
    (hlabel : '"' ∉ label) :
    DrawnRelationship.ofText? (trim (relationshipLine source target cardinality label)) =
      some ⟨String.ofList source, String.ofList target, cardinality, String.ofList label⟩ := by
  have htoken : cardinality.token.toList ≠ [] ∧
      ∀ c ∈ cardinality.token.toList, (!isWhite c) = true := by
    cases cardinality <;> decide
  have hspanToken := span1?_append_cons htoken.1 htoken.2 (by decide : (!isWhite ' ') = false)
  have hspanTarget := span1?_append_cons htarget.1 htarget.2
    (by decide : Label.isIdChar ' ' = false)
  have hspace : ∀ text : Text, stripPrefix? [' '] (' ' :: text) = some text :=
    fun text => stripPrefix?_append [' '] text
  have hbegin : stripPrefix? " : \"".toList (' ' :: (": \"".toList ++ (label ++ ['"']))) =
      some (label ++ ['"']) :=
    stripPrefix?_append " : \"".toList _
  have hend : stripSuffix? ['"'] (label ++ ['"']) = some label :=
    stripSuffix?_eq_some_iff.mpr rfl
  rw [trim_relationshipLine cardinality hsource, DrawnRelationship.ofText?,
    span1?_append_cons hsource.1 hsource.2 (by decide)]
  simp only [Option.bind_eq_bind, Option.bind_some, hspace, hspanToken, String.ofList_toList,
    Cardinality.ofToken?_token, hspanTarget, hbegin, hend, if_neg hlabel]
  rfl

end Relationships
end DataModel

/-! ### Rendered diagrams -/

namespace DrawnModel

open DataModel DataModelCheck

theorem ofLines?_attributes (attributes : List Attribute) (id : String)
    (opened : List DrawnAttribute) (rest : List Text) :
    ofLines? (some (id, opened)) ((attributes.map attributeLine).map String.toList ++ rest) =
      ofLines? (some (id, opened ++ attributes.map Attribute.drawn)) rest := by
  induction attributes generalizing opened with
  | nil => rw [List.map_nil, List.map_nil, List.map_nil, List.nil_append, List.append_nil]
  | cons attr others ih =>
    rw [List.map_cons, List.map_cons, List.cons_append, ofLines?]
    simp only [if_neg (trim_attributeLine_ne attr), attribute_attributeLine]
    rw [ih, List.map_cons, List.append_assoc, List.singleton_append]

theorem ofLines?_entityLines {id : String} (hid : Label.IsId id.toList)
    (attributes : List Attribute) (rest : List Text) :
    ofLines? none ((entityLines id attributes).map String.toList ++ rest) =
      (ofLines? none rest).map (cons ⟨id,
        if attributes.isEmpty then none else some (attributes.map Attribute.drawn)⟩) := by
  cases attributes with
  | nil =>
    have hheading := heading_name hid
    rw [String.ofList_toList] at hheading
    rw [entityLines, List.map_singleton, String.toList_append, List.singleton_append, ofLines?]
    simp only [hheading]
    rfl
  | cons first others =>
    have hheading := heading_brace hid
    have hend : trim "    \x7d".toList = ['\x7d'] := by decide
    rw [String.ofList_toList] at hheading
    have hlines : (entityLines id (first :: others)).map String.toList ++ rest =
        ("    ".toList ++ (id.toList ++ " \x7b".toList)) ::
          (((first :: others).map attributeLine).map String.toList ++
            ("    \x7d".toList :: rest)) := by
      simp [entityLines]
    rw [hlines, ofLines?]
    simp only [hheading]
    rw [ofLines?_attributes, ofLines?]
    simp only [hend, if_true, List.nil_append, List.isEmpty_cons, Bool.false_eq_true, if_false]

theorem ofLines?_flatMap {pairs : List (String × Entity)}
    (hids : ∀ pair ∈ pairs, Label.IsId pair.1.toList) (rest : List Text) :
    ofLines? none ((pairs.flatMap fun (id, entity) => entityLines id entity.attributes).map
        String.toList ++ rest) =
      (ofLines? none rest).map fun drawn =>
        { drawn with entities := pairs.map (fun (id, entity) => ⟨id,
            if entity.attributes.isEmpty then none
            else some (entity.attributes.map Attribute.drawn)⟩) ++ drawn.entities } := by
  induction pairs with
  | nil => simp
  | cons pair others ih =>
    rw [List.forall_mem_cons] at hids
    rw [List.flatMap_cons, List.map_append, List.append_assoc, ofLines?_entityLines hids.1,
      ih hids.2, Option.map_map]
    rfl

theorem relationships?_map {α : Type} {line : α → Text} {drawn : α → DrawnRelationship}
    {items : List α}
    (h : ∀ item ∈ items, DrawnRelationship.ofText? (trim (line item)) = some (drawn item)) :
    relationships? (items.map line) = some (items.map drawn) := by
  induction items with
  | nil => rfl
  | cons item rest ih =>
    rw [List.forall_mem_cons] at h
    have hrest := ih h.2
    rw [relationships?] at hrest ⊢
    rw [List.map_cons, List.mapM_cons, h.1, hrest]
    rfl

theorem ofLines?_relationships {lines : List Text} {relationships : List DrawnRelationship}
    (hlines : ∀ text ∈ lines, DrawnEntity.heading? (trim text) = none)
    (h : relationships? lines = some relationships) :
    ofLines? none lines = some ⟨[], relationships⟩ := by
  cases lines with
  | nil =>
    obtain rfl := Option.some.inj h
    rfl
  | cons text rest =>
    rw [List.forall_mem_cons] at hlines
    rw [ofLines?]
    simp only [hlines.1, h]
    rfl

end DrawnModel
end DiagramSync
