import DiagramSync.Proofs.Document.Padding
import DiagramSync.Proofs.Entity.Declaration
import DiagramSync.Proofs.Entity.Padding
import DiagramSync.Proofs.Entity.Prose
import DiagramSync.Proofs.Entity.Relationship
import Mathlib.Data.List.TakeWhile

/-!
Entities in print: a section with a bullet for each, its attributes in code spans and a sentence
for each relationship. Reading gives back what was printed; none of the readers takes notice of
what was printed for another.
-/

namespace DiagramSync

open Text

/-! ### Names of entries -/

namespace EntityEntry

theorem emphasized?_append {name : Text} (hne : name ≠ []) (hstar : '*' ∉ name) (rest : Text) :
    emphasized? ("**".toList ++ (name ++ "**".toList ++ rest)) = some (name, rest) := by
  have hsplit : splitOnce? "**".toList (name ++ "**".toList ++ rest) = some (name, rest) :=
    splitOnce?_append hstar rest
  have hbetween : between? "**".toList ("**".toList ++ (name ++ "**".toList ++ rest)) =
      some (name, rest) := by
    obtain ⟨c, name, rfl⟩ := List.exists_cons_of_ne_nil hne
    rw [between?, stripPrefix?_append]
    dsimp only
    rw [hsplit]
  rw [emphasized?, emphasisMarks, List.findSome?_cons, hbetween]

theorem bareName_of_isName {name : Text} (h : Mention.IsName name) : bareName name = name := by
  have hkeep : ∀ {drop : Char → Bool}, (∀ c ∈ name, drop c = false) →
      trimEndWhere drop name = name := by
    intro drop hdrop
    have happend := trimEndWhere_append (fun c hc => hdrop c (List.mem_of_mem_getLast? hc)) []
    rw [List.append_nil] at happend
    exact happend.trans (List.append_nil name)
  have hcolon : ∀ c ∈ name, (c == ':') = false := by
    intro c hc
    exact beq_eq_false_iff_ne.mpr (ne_of_keep (h.isAlphanum c hc) rfl)
  rw [bareName, h.isWord.trim_eq, hkeep hcolon, trimEnd, hkeep h.isWord.2]

end EntityEntry

/-! ### Printing -/

/-- What is printed about an entity: its attributes with their types, and for each relationship
the phrase and the name that it leads to. -/
structure Outline where
  name : String
  attributes : List (String × String)
  links : List (Phrase × String)

namespace Outline

/-- The name and the type of an attribute are such as are read in print. -/
structure IsField (field : String × String) : Prop where
  isName : Declaration.IsName field.1.toList
  isType : Declaration.IsType field.2.toList

/-- Names are such words as are read in print, and no attribute or target is repeated. No name is
`many`, which some phrases end in. -/
structure Printable (names : List String) (outline : Outline) : Prop where
  isName : Mention.IsName outline.name.toList
  not_many : equalsNoCase outline.name.toList "many".toList = false
  isField : ∀ field ∈ outline.attributes, IsField field
  fields_nodup : (outline.attributes.map Prod.fst).Nodup
  phrase_mem : ∀ link ∈ outline.links, link.1 ∈ Phrase.all
  target_mem : ∀ link ∈ outline.links, link.2 ∈ names
  targets_nodup : (outline.links.map Prod.snd).Nodup

def span (field : String × String) : Text :=
  field.1.toList ++ ':' :: ' ' :: field.2.toList

def codeSpan (field : String × String) : Text :=
  '\x60' :: (span field ++ ['\x60'])

def sentence (link : Phrase × String) : Text :=
  link.1.text.toList ++ ' ' :: (link.2.toList ++ ['.'])

def text (outline : Outline) : Text :=
  List.intercalate ", ".toList (outline.attributes.map codeSpan) ++ ". ".toList ++
    List.intercalate " ".toList (outline.links.map sentence)

def bullet (outline : Outline) : Text :=
  "- **".toList ++ outline.name.toList ++ "**: ".toList ++ outline.text

/-- The lines of the print. -/
def printedLines (outlines : List Outline) : List Text :=
  "## Key Entities".toList :: [] :: outlines.map bullet

def print (outlines : List Outline) : Text :=
  (printedLines outlines).flatMap fun line => line ++ ['\n']

/-- The entity that is read from what is printed. -/
def entity (outline : Outline) : Entity where
  name := outline.name
  description := String.ofList (trim outline.text)
  attributes := outline.attributes.map fun (name, type) =>
    ⟨name, type, name == "id", endsWith "_id".toList name.toList⟩
  relationships := outline.links.map fun (phrase, target) =>
    ⟨outline.name, target, phrase.cardinality, phrase.dashless⟩

variable {outline : Outline} {names known : List String} {field : String × String}
  {fields : List (String × String)} {links : List (Phrase × String)}

/-! ### Characters -/

/-- The characters of attributes in print. -/
def isFieldChar (c : Char) : Bool :=
  Declaration.isTypeChar c || c == '[' || c == ']'

/-- The characters of sentences in print. -/
def isProseChar (c : Char) : Bool :=
  c.isAlphanum || c == ' ' || c == '-' || c == '.'

theorem IsField.isFieldChar_name (h : IsField field) :
    ∀ c ∈ field.1.toList, isFieldChar c = true := by
  intro c hc
  simp [isFieldChar, Declaration.isTypeChar_of_isNameChar (h.isName.isNameChar c hc)]

theorem IsField.isFieldChar_type (h : IsField field) :
    ∀ c ∈ field.2.toList, isFieldChar c = true := by
  refine h.isType.forall_mem (fun c hc => ?_) (by decide)
  simp [isFieldChar, hc]

theorem isProseChar_of_mem_phrase : ∀ phrase ∈ Phrase.all, ∀ c ∈ phrase.text.toList,
    isProseChar c = true := by
  decide

theorem isProseChar_of_isName {name : Text} (h : Mention.IsName name) :
    ∀ c ∈ name, isProseChar c = true := by
  intro c hc
  simp [isProseChar, h.isAlphanum c hc]

/-- What stands behind the attributes holds no mark that another reader looks for. -/
theorem isProseChar_sentences (hphrase : ∀ link ∈ links, link.1 ∈ Phrase.all)
    (htarget : ∀ link ∈ links, Mention.IsName link.2.toList) :
    ∀ c ∈ ". ".toList ++ List.intercalate " ".toList (links.map sentence),
      isProseChar c = true := by
  rw [List.forall_mem_append]
  refine ⟨by decide, forall_mem_intercalate (by decide) (List.forall_mem_map.mpr ?_)⟩
  intro link hlink
  rw [sentence, List.forall_mem_append, List.forall_mem_cons, List.forall_mem_append]
  exact ⟨isProseChar_of_mem_phrase link.1 (hphrase link hlink), rfl,
    isProseChar_of_isName (htarget link hlink), by decide⟩

theorem unbroken_of_keep {keep : Char → Bool} (hfeed : keep '\n' = false)
    (hreturn : keep '\r' = false) {text : Text} (h : ∀ c ∈ text, keep c = true) : Unbroken text :=
  fun c hc => ⟨ne_of_keep (h c hc) hfeed, ne_of_keep (h c hc) hreturn⟩

/-! ### Attributes -/

/-- The declaration of an attribute. -/
def declared (field : String × String) : Declaration :=
  ⟨field.1.toList, field.2.toList, none⟩

theorem attributeOf_declared (field : String × String) :
    Entity.attributeOf (declared field) ((declared field).name == "id".toList) =
      ⟨field.1, field.2, field.1 == "id", endsWith "_id".toList field.1.toList⟩ := by
  have hid : (field.1.toList == "id".toList) = (field.1 == "id") := by
    rw [Bool.eq_iff_iff, beq_iff_eq, beq_iff_eq, String.toList_inj]
  have hforeign : Entity.namesForeignKey (declared field) =
      endsWith "_id".toList field.1.toList :=
    Entity.namesForeignKey_of_mark rfl
  rw [Entity.attributeOf, hforeign]
  simp only [declared, String.ofList_toList, hid]

theorem accent_not_mem_span (h : IsField field) : '\x60' ∉ span field := by
  have haccent : ∀ c ∈ span field, c ≠ '\x60' := by
    rw [span, List.forall_mem_append, List.forall_mem_cons, List.forall_mem_cons]
    exact ⟨fun c hc => ne_of_keep (h.isFieldChar_name c hc) rfl, by decide, by decide,
      fun c hc => ne_of_keep (h.isFieldChar_type c hc) rfl⟩
  exact fun hmem => haccent _ hmem rfl

theorem all_codeSpan (h : IsField field) {front : Text}
    (hfront : ':' ∉ front ∧ '\x60' ∉ front) (more : Text) :
    Declaration.all (front ++ (codeSpan field ++ more)) =
      declared field :: Declaration.all more := by
  have hspan : Declaration.inSpan? (span field) = some (declared field) :=
    Declaration.inSpan?_append h.isName h.isType
  have hread := Declaration.all_append hfront.2 (accent_not_mem_span h) more
  rw [Declaration.inProse_eq_nil hfront.1, hspan] at hread
  simpa [codeSpan] using hread

/-- The induction is on the attributes. What stands in front of each is a comma at most. -/
theorem all_codeSpans (h : ∀ field ∈ fields, IsField field) {front prose : Text}
    (hfront : ':' ∉ front ∧ '\x60' ∉ front) (hprose : ':' ∉ prose ∧ '\x60' ∉ prose) :
    Declaration.all (front ++ (List.intercalate ", ".toList (fields.map codeSpan) ++ prose)) =
      fields.map declared := by
  induction fields generalizing front with
  | nil =>
    have hcolon : ':' ∉ front ++ prose := by simp [hfront.1, hprose.1]
    have haccent : '\x60' ∉ front ++ prose := by simp [hfront.2, hprose.2]
    rw [List.map_nil, List.intercalate_nil, List.nil_append, Declaration.all_of_not_mem haccent,
      Declaration.inProse_eq_nil hcolon]
    rfl
  | cons field rest ih =>
    rw [List.forall_mem_cons] at h
    cases rest with
    | nil =>
      rw [List.map_singleton, List.intercalate_singleton, all_codeSpan h.1 hfront,
        Declaration.all_of_not_mem hprose.2, Declaration.inProse_eq_nil hprose.1]
      rfl
    | cons next rest =>
      have hcomma : ':' ∉ ", ".toList ∧ '\x60' ∉ ", ".toList := by decide
      rw [List.map_cons, List.map_cons, List.intercalate_cons_cons, List.append_assoc,
        List.append_assoc, all_codeSpan h.1 hfront]
      exact congrArg (declared field :: ·) (ih h.2 hcomma)

theorem declaredIn_text {entry : EntityEntry} (h : outline.Printable names)
    (htarget : ∀ name ∈ names, Mention.IsName name.toList) (hbody : entry.body = outline.text) :
    Entity.declaredIn entry = ⟨outline.entity.attributes, []⟩ := by
  have hprose := isProseChar_sentences h.phrase_mem fun link hlink =>
    htarget link.2 (h.target_mem link hlink)
  have hall : Declaration.all entry.body = outline.attributes.map declared := by
    rw [hbody, text, List.append_assoc]
    exact all_codeSpans h.isField ⟨List.not_mem_nil, List.not_mem_nil⟩
      ⟨fun hmem => ne_of_keep (hprose _ hmem) rfl rfl,
        fun hmem => ne_of_keep (hprose _ hmem) rfl rfl⟩
  have hmark : ∀ declaration ∈ outline.attributes.map declared, declaration.mark = none :=
    List.forall_mem_map.mpr fun _ _ => rfl
  have hnodup : ((outline.attributes.map declared).map Declaration.name).Nodup := by
    have hnames := h.fields_nodup.map (fun _ _ heq => String.toList_injective heq)
    rwa [List.map_map] at hnames ⊢
  rw [Entity.declaredIn, hall, Entity.declare_of_nodup entry hmark hnodup, List.map_map]
  exact congrArg (Findings.mk · []) (List.map_congr_left fun field _ => attributeOf_declared field)

/-! ### Relationships -/

theorem scan_mark {mark : Char} (hmark : mark.isAlpha = false) (wordStart : Bool) (rest : Text) :
    Mention.scan known wordStart 0 (mark :: rest) =
      Mention.scan known (!continuesWord mark) 0 rest :=
  Mention.scan_word (List.forall_mem_nil _) hmark (.inl rfl) wordStart rest

theorem scan_codeSpan (h : IsField field) {mark : Char} (hmark : mark ∈ [',', '.'])
    (wordStart : Bool) (more : Text) :
    Mention.scan known wordStart 0 (Mention.plainProse (codeSpan field ++ mark :: more)) =
      Mention.scan known true 0 (Mention.plainProse more) := by
  have hword : ∀ {text : Text}, (∀ c ∈ text, isFieldChar c = true) →
      ∀ c ∈ Mention.plainProse text, c ≠ ' ' ∧ c ≠ '-' := by
    intro text htext c hc
    have hchar := htext c (Mention.mem_of_mem_plainProse hc)
    exact ⟨ne_of_keep hchar rfl, ne_of_keep hchar rfl⟩
  have hmark' : ((mark ≠ '*' ∧ mark ≠ '_' ∧ mark ≠ '\x60') ∧ mark.isAlpha = false ∧
      mark ≠ ' ' ∧ mark ≠ '-') ∧ continuesWord mark = false := by
    revert mark
    decide
  obtain ⟨⟨hplain, halpha, hspace⟩, hcontinues⟩ := hmark'
  have htext : Mention.plainProse (codeSpan field ++ mark :: more) =
      Mention.plainProse field.1.toList ++ ':' :: ' ' :: (Mention.plainProse field.2.toList ++
        mark :: Mention.plainProse more) := by
    rw [codeSpan, span, List.cons_append, Mention.plainProse_cons_span, List.append_assoc,
      List.append_assoc, List.cons_append, Mention.plainProse_append_cons (by decide),
      List.cons_append, Mention.plainProse_cons (by decide), List.singleton_append,
      Mention.plainProse_append_span, Mention.plainProse_cons hplain]
  rw [htext, Mention.scan_word (hword h.isFieldChar_name) rfl (.inr (by decide)),
    scan_mark rfl, Mention.scan_word (hword h.isFieldChar_type) halpha (.inr hspace),
    hcontinues]
  rfl

/-- The induction is on the attributes, none of which holds a mention. -/
theorem scan_codeSpans (h : ∀ field ∈ fields, IsField field) (wordStart : Bool) (prose : Text) :
    Mention.scan known wordStart 0 (Mention.plainProse
        (List.intercalate ", ".toList (fields.map codeSpan) ++ '.' :: prose)) =
      Mention.scan known true 0 (Mention.plainProse prose) := by
  induction fields generalizing wordStart with
  | nil =>
    rw [List.map_nil, List.intercalate_nil, List.nil_append,
      Mention.plainProse_cons (by decide), scan_mark rfl]
    rfl
  | cons field rest ih =>
    rw [List.forall_mem_cons] at h
    cases rest with
    | nil =>
      rw [List.map_singleton, List.intercalate_singleton,
        scan_codeSpan h.1 (by decide)]
    | cons next rest =>
      have hcomma : ", ".toList = [',', ' '] := rfl
      rw [List.map_cons, List.map_cons, List.intercalate_cons_cons, ← List.map_cons,
        List.append_assoc, List.append_assoc, hcomma, List.cons_append,
        scan_codeSpan h.1 (by decide), List.singleton_append,
        Mention.plainProse_cons (by decide), scan_mark rfl, ← hcomma]
      exact ih h.2 _

/-- The induction is on the sentences, each of which is read as a mention. -/
theorem scan_sentences (hknown : ∀ name ∈ known, Mention.IsName name.toList)
    (hmany : ∀ name ∈ known, equalsNoCase name.toList "many".toList = false)
    (hphrase : ∀ link ∈ links, link.1 ∈ Phrase.all) (htarget : ∀ link ∈ links, link.2 ∈ known) :
    Mention.scan known true 0 (List.intercalate " ".toList (links.map sentence)) =
      Entity.resolvedLinks links := by
  induction links with
  | nil => rfl
  | cons link rest ih =>
    rw [List.forall_mem_cons] at hphrase htarget
    have hsentence : ∀ more, Mention.scan known true 0 (sentence link ++ more) =
        .resolved link.2 link.1 :: Mention.scan known true 0 more := by
      intro more
      rw [← Mention.scan_sentence hphrase.1 hknown htarget.1 (hmany _ htarget.1)]
      simp [sentence]
    cases rest with
    | nil =>
      rw [List.map_singleton, List.intercalate_singleton, ← List.append_nil (sentence link),
        hsentence]
      rfl
    | cons next rest =>
      have hspace : " ".toList = [' '] := rfl
      rw [List.map_cons, List.map_cons, List.intercalate_cons_cons, List.append_assoc, hsentence,
        hspace, List.singleton_append, scan_mark rfl]
      exact congrArg (Mention.resolved link.2 link.1 :: ·) (ih hphrase.2 htarget.2)

theorem statedIn_text {entry : EntityEntry} (h : outline.Printable names)
    (hnames : ∀ name ∈ names, Mention.IsName name.toList)
    (hmany : ∀ name ∈ names, equalsNoCase name.toList "many".toList = false)
    (hname : entry.name = outline.name) (hbody : entry.body = outline.text) :
    Entity.statedIn entry (Entity.bySize names) = ⟨outline.entity.relationships, []⟩ := by
  have hprose : ∀ c ∈ ' ' :: List.intercalate " ".toList (outline.links.map sentence),
      c ≠ '*' ∧ c ≠ '_' ∧ c ≠ '\x60' := by
    intro c hc
    have hchar := isProseChar_sentences h.phrase_mem
      (fun link hlink => hnames link.2 (h.target_mem link hlink)) c (List.mem_cons_of_mem _ hc)
    exact ⟨ne_of_keep hchar rfl, ne_of_keep hchar rfl, ne_of_keep hchar rfl⟩
  have hmentions : Entity.mentionsIn names entry = Entity.resolvedLinks outline.links := by
    have hpoint : ". ".toList = ['.', ' '] := rfl
    rw [Entity.mentionsIn, Mention.all, hbody, text, List.append_assoc, hpoint, List.cons_append,
      List.singleton_append, scan_codeSpans h.isField,
      Mention.plainProse_of_plain hprose, scan_mark rfl]
    exact scan_sentences (fun name hmem => hnames name (Entity.mem_bySize.mp hmem))
      (fun name hmem => hmany name (Entity.mem_bySize.mp hmem)) h.phrase_mem
      (fun link hlink => Entity.mem_bySize.mpr (h.target_mem link hlink))
  rw [Entity.statedIn_eq, hmentions, Entity.ofMentions_resolvedLinks entry h.targets_nodup, hname]
  simp only [Phrase.label_eq_dashless, entity]

/-! ### Bullets -/

/-- The entry that is read from a bullet, without its place. -/
def entry (outline : Outline) : EntityEntry :=
  ⟨outline.name, String.ofList (trim outline.text), outline.text, ⟨0, 0⟩⟩

theorem head?_text (outline : Outline) : ∀ c ∈ outline.text.head?, c = '\x60' ∨ c = '.' := by
  rw [text]
  rcases outline.attributes with - | ⟨field, - | ⟨next, rest⟩⟩ <;> simp [codeSpan]

theorem bullet?_bullet (h : Mention.IsName outline.name.toList) :
    EntityEntry.bullet? outline.bullet = some (outline.name.toList, outline.text) := by
  have hstar : '*' ∉ outline.name.toList :=
    fun hmem => ne_of_keep (isProseChar_of_isName h _ hmem) rfl rfl
  have hemphasis := EntityEntry.emphasized?_append h.ne_nil hstar (": ".toList ++ outline.text)
  have hskip : skipSpaces (EntityEntry.skipSeparator (skipSpaces (": ".toList ++ outline.text))) =
      outline.text := by
    have hhead : ∀ c ∈ outline.text.head?, isSpace c = false := by
      intro c hc
      obtain rfl | rfl := head?_text outline c hc <;> rfl
    exact skipSpaces_of_head? hhead
  have hbullet : outline.bullet = '-' :: ' ' ::
      ("**".toList ++ (outline.name.toList ++ "**".toList ++ (": ".toList ++ outline.text))) := by
    simp [bullet]
  have hread : EntityEntry.bullet? outline.bullet =
      (EntityEntry.emphasized? ("**".toList ++ (outline.name.toList ++ "**".toList ++
        (": ".toList ++ outline.text)))).bind fun found =>
          some (found.1, skipSpaces (EntityEntry.skipSeparator (skipSpaces found.2))) := by
    rw [hbullet]
    rfl
  rw [hread, hemphasis]
  exact congrArg (fun text => some (outline.name.toList, text)) hskip

theorem ofBullet?_bullet {line : Line} (h : Mention.IsName outline.name.toList)
    (htext : line.text = outline.bullet) :
    ∃ found, EntityEntry.ofBullet? line = some found ∧ found.unplaced = outline.entry := by
  have hne : outline.name.toList.isEmpty = false := by
    simpa using h.ne_nil
  rw [EntityEntry.ofBullet?, htext, bullet?_bullet h]
  simp only [EntityEntry.bareName_of_isName h, hne]
  exact ⟨_, rfl, by rw [EntityEntry.unplaced, String.ofList_toList, entry]⟩

theorem reads_bullet {line : Line} (htext : line.text = outline.bullet)
    (hfenced : line.fenced = false) :
    line.isShown = true ∧ EntityEntry.isOuterBullet line.text = true ∧
      Heading.ofLine? line = none := by
  have hhead : ∀ c ∈ outline.bullet.head?, c ≠ ' ' ∧ c ≠ '#' := by
    intro c hc
    obtain rfl : '-' = c := Option.some.inj hc
    decide
  refine ⟨?_, ?_, ?_⟩
  · rw [Line.isShown, hfenced, Line.isBlank, htext]
    rfl
  · rw [htext]
    rfl
  · rw [Heading.ofLine?, hfenced, htext]
    exact Line.heading?_of_head? hhead

/-- The induction is on the bullets. Neither the entries that are closed nor the one that is open
have a name of those that are left, so none is left out. -/
theorem collect_bullets {outlines : List Outline}
    (h : ∀ outline ∈ outlines, Mention.IsName outline.name.toList) {lines : List Line}
    (hlines : lines.map Line.unplaced = outlines.map fun outline => ⟨outline.bullet, 0, 0, false⟩)
    {opened : Option EntityEntry} {closed : List EntityEntry}
    (hnodup : ((closed ++ opened.toList).map EntityEntry.name ++
      outlines.map Outline.name).Nodup) :
    ∃ entries, List.Forall₂ (fun outline found => outline.entry = found.unplaced) outlines
        entries ∧ EntityEntry.collect opened closed lines = ⟨opened.toList ++ entries, []⟩ := by
  induction outlines generalizing lines opened closed with
  | nil =>
    obtain rfl : lines = [] := by simpa using hlines
    refine ⟨[], .nil, ?_⟩
    rw [EntityEntry.collect, EntityEntry.close_of_nodup (List.nodup_append.mp hnodup).1]
    rfl
  | cons outline rest ih =>
    rw [List.forall_mem_cons] at h
    rw [List.map_cons] at hlines
    obtain ⟨line, lines, rfl, hline, hlines⟩ := List.map_eq_cons_iff.mp hlines
    obtain ⟨htext, -, -, hfenced⟩ := Line.mk.inj hline
    obtain ⟨hshown, houter, -⟩ := reads_bullet htext hfenced
    obtain ⟨found, hfound, hentry⟩ := ofBullet?_bullet h.1 htext
    have hname : found.name = outline.name := congrArg EntityEntry.name hentry
    have hnext : (((closed ++ opened.toList) ++ (some found).toList).map EntityEntry.name ++
        rest.map Outline.name).Nodup := by
      simpa [hname] using hnodup
    obtain ⟨entries, hentries, hcollect⟩ := ih h.2 hlines hnext
    refine ⟨found :: entries, .cons hentry.symm hentries, ?_⟩
    rw [EntityEntry.collect_cons, hshown, houter, Bool.not_true, if_neg Bool.false_ne_true,
      if_pos rfl, EntityEntry.close_of_nodup (List.nodup_append.mp hnodup).1, hfound]
    dsimp only
    rw [hcollect]
    rfl

/-! ### Sections -/

/-- What is printed about one entity is read without a warning, given the names of all. -/
theorem ofEntry_of_unplaced {found : EntityEntry} (h : outline.Printable names)
    (hnames : ∀ name ∈ names, Mention.IsName name.toList)
    (hmany : ∀ name ∈ names, equalsNoCase name.toList "many".toList = false)
    (hfound : outline.entry = found.unplaced) :
    Entity.ofEntry (Entity.bySize names) found = ⟨[outline.entity], []⟩ := by
  have hname : found.name = outline.name := (congrArg EntityEntry.name hfound).symm
  have hdescription : found.description = outline.entity.description :=
    (congrArg EntityEntry.description hfound).symm
  have hbody : found.body = outline.text := (congrArg EntityEntry.body hfound).symm
  rw [Entity.ofEntry, declaredIn_text h hnames hbody, statedIn_text h hnames hmany hname hbody,
    hname, hdescription]
  rfl

theorem ofEntries_of_forall₂ {entries : List EntityEntry} {outlines : List Outline}
    (h : ∀ outline ∈ outlines, outline.Printable (outlines.map Outline.name))
    (hentries : List.Forall₂ (fun outline found => outline.entry = found.unplaced) outlines
      entries) : Entity.ofEntries entries = ⟨outlines.map entity, []⟩ := by
  have hnames : outlines.map Outline.name = entries.map EntityEntry.name := by
    rw [← List.forall₂_eq_eq_eq, List.forall₂_map_left_iff, List.forall₂_map_right_iff]
    exact hentries.imp fun outline found hfound => congrArg EntityEntry.name hfound
  have hisName : ∀ name ∈ outlines.map Outline.name, Mention.IsName name.toList :=
    List.forall_mem_map.mpr fun outline houtline => (h outline houtline).isName
  have hmany : ∀ name ∈ outlines.map Outline.name,
      equalsNoCase name.toList "many".toList = false :=
    List.forall_mem_map.mpr fun outline houtline => (h outline houtline).not_many
  have hdescribed : (outlines.map fun outline => ⟨[outline.entity], []⟩) =
      entries.map (Entity.ofEntry (Entity.bySize (outlines.map Outline.name))) := by
    rw [← List.forall₂_eq_eq_eq, List.forall₂_map_left_iff, List.forall₂_map_right_iff]
    refine ((List.forall₂_and_left outlines entries).mpr ⟨h, hentries⟩).imp ?_
    rintro outline found ⟨houtline, hfound⟩
    exact (ofEntry_of_unplaced houtline hisName hmany hfound).symm
  rw [Entity.ofEntries, ← hnames, ← hdescribed, List.flatMap_map, List.flatMap_map]
  simp [List.map_eq_flatMap]

theorem unbroken_bullet (h : outline.Printable names)
    (hnames : ∀ name ∈ names, Mention.IsName name.toList) : Unbroken outline.bullet := by
  have hfield : ∀ field ∈ outline.attributes, Unbroken (codeSpan field) := by
    intro field hfield
    have hname := unbroken_of_keep rfl rfl (h.isField field hfield).isFieldChar_name
    have htype := unbroken_of_keep rfl rfl (h.isField field hfield).isFieldChar_type
    rw [codeSpan, span, List.append_assoc]
    rw [Unbroken, List.forall_mem_cons, List.forall_mem_append, List.cons_append, List.cons_append,
      List.forall_mem_cons, List.forall_mem_cons, List.forall_mem_append]
    exact ⟨by decide, hname, by decide, by decide, htype, by decide⟩
  have hprose := unbroken_of_keep rfl rfl (isProseChar_sentences h.phrase_mem fun link hlink =>
    hnames link.2 (h.target_mem link hlink))
  have hname := unbroken_of_keep rfl rfl (isProseChar_of_isName h.isName)
  have hfields : Unbroken (List.intercalate ", ".toList (outline.attributes.map codeSpan)) :=
    forall_mem_intercalate (by decide) (List.forall_mem_map.mpr hfield)
  have htext : Unbroken outline.text := by
    rw [text, List.append_assoc]
    exact unbroken_append.mpr ⟨hfields, hprose⟩
  rw [bullet, unbroken_append, unbroken_append, unbroken_append]
  exact ⟨⟨⟨by decide, hname⟩, by decide⟩, htext⟩

theorem scan_print {outlines : List Outline}
    (h : ∀ outline ∈ outlines, outline.Printable (outlines.map Outline.name)) :
    (Line.scan (print outlines)).map Line.unplaced =
      (printedLines outlines).map fun text => ⟨text, 0, 0, false⟩ := by
  have hnames : ∀ name ∈ outlines.map Outline.name, Mention.IsName name.toList :=
    List.forall_mem_map.mpr fun outline houtline => (h outline houtline).isName
  have hunbroken : ∀ line ∈ printedLines outlines, Unbroken line := by
    rw [printedLines, List.forall_mem_cons, List.forall_mem_cons, List.forall_mem_map]
    refine ⟨by decide, by decide, fun outline houtline => ?_⟩
    exact unbroken_bullet (h outline houtline) hnames
  have hdrop : ∀ line ∈ printedLines outlines, dropReturn line = line :=
    fun line hline => dropReturn_of_unbroken (hunbroken line hline)
  have hfence : ∀ line ∈ printedLines outlines, Fence.ofLine? line = none := by
    rw [printedLines, List.forall_mem_cons, List.forall_mem_cons, List.forall_mem_map]
    refine ⟨by decide, by decide, fun outline _ => Line.fence?_of_head? fun c hc => ?_⟩
    obtain rfl : '-' = c := Option.some.inj hc
    decide
  rw [print, Line.scan_feeds (fun line hline => (hunbroken line hline).feed_not_mem)
    fun line hline => (congrArg Fence.ofLine? (hdrop line hline)).trans (hfence line hline)]
  exact List.map_congr_left fun line hline => by rw [hdrop line hline]

theorem section?_print {outlines : List Outline} {lines : List Line}
    (hlines : lines.map Line.unplaced =
      (printedLines outlines).map fun text => ⟨text, 0, 0, false⟩) :
    ∃ blank bullets, EntityEntry.section? lines = some (blank :: bullets) ∧
      blank.isShown = false ∧
      bullets.map Line.unplaced = outlines.map fun outline => ⟨outline.bullet, 0, 0, false⟩ := by
  rw [printedLines, List.map_cons, List.map_cons, List.map_map] at hlines
  obtain ⟨head, body, rfl, hhead, hbody⟩ := List.map_eq_cons_iff.mp hlines
  obtain ⟨blank, bullets, rfl, hblank, hbullets⟩ := List.map_eq_cons_iff.mp hbody
  obtain ⟨hheadText, -, -, hheadFenced⟩ := Line.mk.inj hhead
  obtain ⟨hblankText, -, -, hblankFenced⟩ := Line.mk.inj hblank
  have hheading : Heading.ofLine? head = some ⟨2, "Key Entities".toList⟩ := by
    rw [Heading.ofLine?, hheadFenced, hheadText]
    decide
  have hheads : EntityEntry.headsSection ⟨2, "Key Entities".toList⟩ = true := by
    decide +kernel
  have hnone : ∀ line ∈ blank :: bullets, Heading.ofLine? line = none := by
    rw [List.forall_mem_cons]
    constructor
    · rw [Heading.ofLine?, hblankFenced, hblankText]
      rfl
    · intro line hline
      have hmem : line.unplaced ∈ bullets.map Line.unplaced := List.mem_map_of_mem hline
      rw [hbullets, List.mem_map] at hmem
      obtain ⟨outline, -, heq⟩ := hmem
      obtain ⟨htext, -, -, hfenced⟩ := Line.mk.inj heq.symm
      exact (reads_bullet htext hfenced).2.2
  refine ⟨blank, bullets, ?_, ?_, hbullets⟩
  · rw [EntityEntry.section?, hheading]
    dsimp only
    rw [if_pos hheads, EntityEntry.sectionBody, List.takeWhile_eq_self_iff.mpr]
    intro line hline
    rw [hnone line hline]
  · rw [Line.isShown, hblankFenced, Line.isBlank, hblankText]
    rfl

/-- Printing entities and reading them gives the same entities back, without a warning. -/
theorem ofDocument?_print {outlines : List Outline} (hnodup : (outlines.map Outline.name).Nodup)
    (h : ∀ outline ∈ outlines, outline.Printable (outlines.map Outline.name)) :
    Entity.ofDocument? (print outlines) = some ⟨outlines.map entity, []⟩ := by
  obtain ⟨blank, bullets, hsection, hblank, hbullets⟩ := section?_print (scan_print h)
  have hfresh : ((([] : List EntityEntry) ++ Option.toList none).map EntityEntry.name ++
      outlines.map Outline.name).Nodup := hnodup
  obtain ⟨entries, hentries, hcollect⟩ :=
    collect_bullets (fun outline houtline => (h outline houtline).isName) hbullets hfresh
  have hread : EntityEntry.ofSection (blank :: bullets) = ⟨entries, []⟩ := by
    rw [EntityEntry.ofSection, EntityEntry.collect_cons, hblank]
    exact hcollect
  rw [Entity.ofDocument?, hsection, Option.map_some, Entity.ofSection, hread,
    ofEntries_of_forall₂ h hentries]
  rfl

/-- Names that phrases might go on with, an attribute with marks of emphasis in its name, and an
entity of which there is only the name. -/
theorem ofDocument?_print_two :
    let order : Outline := ⟨"Or", [("id", "uuid"), ("user__id", "Tags[]")],
      [(⟨"has one", .oneToOne⟩, "Or"), (⟨"many-to-one", .manyToOne⟩, "Manyfold")]⟩
    let manyfold : Outline := ⟨"Manyfold", [], []⟩
    let description :=
      "\x60id: uuid\x60, \x60user__id: Tags[]\x60. has one Or. many-to-one Manyfold."
    print [order, manyfold] = ("## Key Entities\n\n- **Or**: " ++ description ++
        "\n- **Manyfold**: . \n").toList ∧
      Entity.ofDocument? (print [order, manyfold]) = some ⟨[
        { name := "Or", description,
          attributes := [⟨"id", "uuid", true, false⟩, ⟨"user__id", "Tags[]", false, true⟩],
          relationships := [⟨"Or", "Or", .oneToOne, "has one"⟩,
            ⟨"Or", "Manyfold", .manyToOne, "many to one"⟩] },
        ⟨"Manyfold", ".", [], []⟩], []⟩ := by
  intro order manyfold description
  have htags : Declaration.IsType "Tags[]".toList :=
    .inr ⟨"Tags".toList, by decide, by decide⟩
  have horder : order.Printable ["Or", "Manyfold"] :=
    ⟨by decide, by decide, List.forall_mem_cons.mpr ⟨⟨by decide, .inl (by decide)⟩,
      List.forall_mem_singleton.mpr ⟨by decide, htags⟩⟩, by decide, by decide, by decide,
      by decide⟩
  have hmanyfold : manyfold.Printable ["Or", "Manyfold"] :=
    ⟨by decide, by decide, List.forall_mem_nil _, by decide, by decide, by decide, by decide⟩
  have h : ∀ outline ∈ [order, manyfold],
      outline.Printable ([order, manyfold].map Outline.name) :=
    List.forall_mem_cons.mpr ⟨horder, List.forall_mem_singleton.mpr hmanyfold⟩
  refine ⟨by decide, (ofDocument?_print (by decide) h).trans ?_⟩
  exact congrArg (fun records => some (Findings.mk records [])) (by decide)

end Outline

end DiagramSync
