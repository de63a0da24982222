import DiagramSync.Proofs.Entity.Longest
import DiagramSync.Proofs.Entity.Padding
import DiagramSync.Proofs.Entity.Section

/-!
The order in which a section lists its entities. What an entry says is told by its own lines, and
which names it mentions by all of them together: so entries that change places take their entities
along as they are.
-/

namespace DiagramSync

open Text

/-! ### Lines by what they say -/

namespace Line

/-- A line outside of code blocks, without its place. -/
def bare (text : Text) : Line :=
  ⟨text, 0, 0, false⟩

/-- The lines of a document that says the texts, without their places. -/
def ofTexts (opened : Option Fence) : List Text → List Line
  | [] => []
  | text :: rest =>
    ⟨text, 0, 0, Fence.holds opened text⟩ :: ofTexts (Fence.next opened text) rest

theorem map_unplaced_ofPieces (opened : Option Fence) (start : Nat) (pieces : List Text) :
    (ofPieces opened start pieces).map unplaced = ofTexts opened (pieces.map content) := by
  induction pieces generalizing opened start with
  | nil => rfl
  | cons piece rest ih =>
    rw [ofPieces, List.map_cons, ih]
    rfl

theorem map_unplaced_scan (document : Text) :
    (scan document).map unplaced = ofTexts none ((scan document).map text) := by
  rw [scan, map_unplaced_ofPieces, map_text_ofPieces]

theorem length_ofTexts (opened : Option Fence) (texts : List Text) :
    (ofTexts opened texts).length = texts.length := by
  induction texts generalizing opened with
  | nil => rfl
  | cons text rest ih => rw [ofTexts, List.length_cons, List.length_cons, ih]

theorem ofTexts_append (opened : Option Fence) (a b : List Text) :
    ofTexts opened (a ++ b) = ofTexts opened a ++ ofTexts (a.foldl Fence.next opened) b := by
  induction a generalizing opened with
  | nil => rfl
  | cons text rest ih => rw [List.cons_append, ofTexts, ofTexts, ih]; rfl

theorem ofTexts_of_no_fence {texts : List Text} (h : ∀ text ∈ texts, Fence.ofLine? text = none) :
    ofTexts none texts = texts.map bare ∧ texts.foldl Fence.next none = none := by
  induction texts with
  | nil => exact ⟨rfl, rfl⟩
  | cons text rest ih =>
    rw [List.forall_mem_cons] at h
    obtain ⟨hlines, hfence⟩ := ih h.2
    rw [ofTexts, List.foldl_cons, Fence.next_of_no_fence h.1, Fence.holds, h.1, hlines]
    exact ⟨rfl, hfence⟩

theorem next_of_not_holds {opened : Option Fence} {text : Text}
    (h : Fence.holds opened text = false) : Fence.next opened text = none := by
  rw [Fence.holds, Bool.or_eq_false_iff, Option.isSome_eq_false_iff, Option.isSome_eq_false_iff,
    Option.isNone_iff_eq_none, Option.isNone_iff_eq_none] at h
  rw [Fence.next_of_no_fence h.2, h.1]

theorem foldl_next_of_unfenced {opened : Option Fence} {texts : List Text} {before : List Line}
    {line : Line} (h : ofTexts opened texts = before ++ [line]) (hfenced : line.fenced = false) :
    texts.foldl Fence.next opened = none := by
  induction texts generalizing opened before with
  | nil => simp [ofTexts] at h
  | cons text rest ih =>
    rw [List.foldl_cons]
    cases before with
    | nil =>
      obtain ⟨rfl, hrest⟩ := List.cons.inj h
      have hnil : rest = [] := by
        rw [← List.length_eq_zero_iff, ← length_ofTexts, hrest, List.length_nil]
      rw [hnil, List.foldl_nil, next_of_not_holds hfenced]
    | cons first others => exact ih (List.cons.inj h).2

end Line

theorem Padded.map_unplaced (ended : Prop) (lines : List Line) :
    Padded ended lines (lines.map Line.unplaced) := by
  induction lines generalizing ended with
  | nil => exact .nil ended
  | cons line rest ih => exact .keep line line.unplaced rfl rfl (ih line.EndsEntry)

namespace EntityEntry

/-! ### Sections that are exchanged -/

section Exchange

variable {lines front body back : List Line}

theorem ofLine?_unplaced (line : Line) : Heading.ofLine? line.unplaced = Heading.ofLine? line :=
  rfl

theorem sectionBody_unplaced (level : Nat) (lines : List Line) :
    sectionBody level (lines.map Line.unplaced) = (sectionBody level lines).map Line.unplaced := by
  rw [sectionBody, List.takeWhile_map]
  rfl

theorem section?_unplaced (lines : List Line) :
    EntityEntry.section? (lines.map Line.unplaced) =
      (section? lines).map (List.map Line.unplaced) := by
  induction lines with
  | nil => rfl
  | cons line rest ih =>
    rw [List.map_cons, section?, section?, ofLine?_unplaced, ih]
    split
    · split
      · rw [sectionBody_unplaced, Option.map_some]
      · rfl
    · rfl

theorem Divides.unplaced (h : Divides lines front body back) :
    Divides (lines.map Line.unplaced) (front.map Line.unplaced) (body.map Line.unplaced)
      (back.map Line.unplaced) := by
  obtain ⟨rfl, before, line, heading, rfl, hbefore, hheads, hbody⟩ := h
  refine ⟨by simp, before.map Line.unplaced, line.unplaced, heading, by simp, ?_, hheads, ?_⟩
  · rw [section?_unplaced, hbefore, Option.map_none]
  · rw [← List.map_append, sectionBody_unplaced, hbody]

theorem sectionBody_append_of_no_heading (level : Nat) {kept : List Line}
    (h : ∀ line ∈ kept, Heading.ofLine? line = none) (back : List Line) :
    sectionBody level (kept ++ back) = kept ++ sectionBody level back := by
  apply List.takeWhile_append_of_pos
  intro line hline
  rw [h line hline]

/-- Lines without headings can be put in the place of others. -/
theorem Divides.exchange (h : Divides lines front body back) {body' : List Line}
    (hbody : ∀ line ∈ body, Heading.ofLine? line = none)
    (hbody' : ∀ line ∈ body', Heading.ofLine? line = none) :
    Divides (front ++ (body' ++ back)) front body' back := by
  obtain ⟨-, before, line, heading, hfront, hbefore, hheads, hend⟩ := h
  rw [sectionBody_append_of_no_heading heading.level hbody, List.append_right_eq_self] at hend
  refine ⟨rfl, before, line, heading, hfront, hbefore, hheads, ?_⟩
  rw [sectionBody_append_of_no_heading heading.level hbody', hend, List.append_nil]

/-- Lines without fences in the place of a section do not change the lines around them. -/
theorem Divides.ofTexts_exchange {document : Text}
    (h : Divides (Line.scan document) front body back)
    (hbody : ∀ text ∈ body.map Line.text, Fence.ofLine? text = none) {texts : List Text}
    (htexts : ∀ text ∈ texts, Fence.ofLine? text = none) :
    Line.ofTexts none (front.map Line.text ++ (texts ++ back.map Line.text)) =
      front.map Line.unplaced ++ (texts.map Line.bare ++ back.map Line.unplaced) := by
  have hscan := Line.map_unplaced_scan document
  obtain ⟨hlines, before, line, heading, hfront, -, hheads, -⟩ := h
  rw [hlines, List.map_append, List.map_append, List.map_append, List.map_append,
    Line.ofTexts_append] at hscan
  obtain ⟨hbefore, hrest⟩ := List.append_inj hscan (by simp [Line.length_ofTexts])
  have hfenced : line.fenced = false := by
    by_contra hfenced
    have hheading := hheads.1
    rw [Heading.ofLine?, if_pos (by simpa using hfenced)] at hheading
    contradiction
  have hopen : (front.map Line.text).foldl Fence.next none = none := by
    have hlast : Line.ofTexts none (front.map Line.text) =
        before.map Line.unplaced ++ [line.unplaced] := by
      rw [← hbefore, hfront, List.map_append, List.map_singleton]
    exact Line.foldl_next_of_unfenced hlast hfenced
  obtain ⟨hplain, hclosed⟩ := Line.ofTexts_of_no_fence hbody
  rw [hopen, Line.ofTexts_append, hplain, hclosed] at hrest
  obtain ⟨-, hbehind⟩ := List.append_inj hrest (by simp)
  obtain ⟨hplain', hclosed'⟩ := Line.ofTexts_of_no_fence htexts
  rw [Line.ofTexts_append, hopen, Line.ofTexts_append, hplain', hclosed', ← hbefore, ← hbehind]

end Exchange

/-! ### Blocks of a section -/

/-- The line can stand below a bullet: it is blank or indented, and neither a fence nor a
heading. -/
def Continues (text : Text) : Prop :=
  (Text.isBlank text = true ∨ (Line.bare text).beginsIndented = true) ∧
    Fence.ofLine? text = none ∧ Heading.ofText? text = none

instance (text : Text) : Decidable (Continues text) :=
  inferInstanceAs (Decidable (_ ∧ _))

/-- A bullet that begins an entry, and the lines below it. -/
structure Block where
  bullet : Text
  below : List Text
  /-- What the bullet's line alone is read as. -/
  opening : EntityEntry
  reads : ofBullet? (Line.bare bullet) = some opening
  continues : ∀ text ∈ below, Continues text

namespace Block

def lines (block : Block) : List Text :=
  block.bullet :: block.below

/-- The entry of the bullet and the lines below it. -/
def entry (block : Block) : EntityEntry :=
  block.opening.withLines (block.below.map Line.bare)

def name (block : Block) : String :=
  block.entry.name

end Block

theorem of_bullet?_eq_some {text : Text} {found : Text × Text} (h : bullet? text = some found) :
    ∃ mark space rest, text = mark :: space :: rest ∧ isBulletMark mark = true ∧
      isSpace space = true := by
  rw [bullet?.eq_def] at h
  split at h
  · rename_i mark rest
    split at h
    · rename_i hmark
      cases rest with
      | nil => simp [skipSpaces1?] at h
      | cons space rest =>
        refine ⟨mark, space, rest, rfl, hmark, ?_⟩
        by_contra hspace
        simp [skipSpaces1?, hspace] at h
    · contradiction
  · contradiction

theorem outer_of_ofBullet?_eq_some {text : Text} {entry : EntityEntry}
    (h : ofBullet? (Line.bare text) = some entry) :
    Fence.ofLine? text = none ∧ Heading.ofText? text = none ∧ isOuterBullet text = true ∧
      (Line.bare text).isShown = true := by
  obtain ⟨mark, space, rest, rfl, hmark, hspace⟩ : ∃ mark space rest, text = mark :: space :: rest ∧
      isBulletMark mark = true ∧ isSpace space = true := by
    rw [ofBullet?] at h
    split at h
    · rename_i hread
      exact of_bullet?_eq_some hread
    · contradiction
  have houter : isOuterBullet (mark :: space :: rest) = true := by
    rw [isOuterBullet, hmark, hspace]
    rfl
  have hplain : isWhite mark = false ∧ Fence.isMarker mark = false ∧ mark ≠ ' ' ∧ mark ≠ '#' := by
    simp only [isBulletMark, Bool.or_eq_true, beq_iff_eq] at hmark
    obtain (rfl | rfl) | rfl := hmark <;> decide
  refine ⟨?_, ?_, houter, isShown_eq_of_isOuterBullet houter⟩
  · apply Line.fence?_of_head?
    intro c hc
    obtain rfl := Option.some.inj hc
    exact ⟨hplain.1, hplain.2.1⟩
  · apply Line.heading?_of_head?
    intro c hc
    obtain rfl := Option.some.inj hc
    exact hplain.2.2

theorem isOuterBullet_of_beginsIndented {line : Line} (h : line.beginsIndented = true) :
    isOuterBullet line.text = false := by
  rw [Line.beginsIndented] at h
  cases htext : line.text with
  | nil => rfl
  | cons c rest =>
    have hspace : isSpace c = true := by simpa [htext] using h
    have hmark : isBulletMark c = false := by
      rw [isSpace, Bool.or_eq_true, beq_iff_eq, beq_iff_eq] at hspace
      obtain rfl | rfl := hspace <;> rfl
    cases rest with
    | nil => rfl
    | cons d rest => rw [isOuterBullet, hmark, Bool.false_and]

theorem Continues.passes {text : Text} (h : Continues text) :
    staysOpen (Line.bare text) = true ∧
      ((Line.bare text).isShown && isOuterBullet text) = false := by
  obtain ⟨hblank | hindented, -⟩ := h
  · have hshown : (Line.bare text).isShown = false := by
      rw [Line.isShown, Line.isBlank, Line.bare, hblank]
      rfl
    rw [staysOpen, hshown]
    exact ⟨rfl, rfl⟩
  · have hbullet : isOuterBullet text = false := isOuterBullet_of_beginsIndented hindented
    rw [staysOpen, hindented, show (Line.bare text).text = text from rfl, hbullet, Bool.and_false]
    exact ⟨Bool.or_true _, rfl⟩

theorem listed_append_of_continues {texts : List Text} (h : ∀ text ∈ texts, Continues text)
    (rest : List Line) : listed (texts.map Line.bare ++ rest) = listed rest := by
  induction texts with
  | nil => rfl
  | cons text others ih =>
    rw [List.forall_mem_cons] at h
    have hskip : ((Line.bare text).isShown && isOuterBullet (Line.bare text).text) = false :=
      h.1.passes.2
    rw [List.map_cons, List.cons_append, listed, hskip, ih h.2]
    rfl

/-- An entry goes up to the next bullet. -/
theorem withLines_append {entry : EntityEntry} {texts : List Text}
    (h : ∀ text ∈ texts, Continues text) {rest : List Line}
    (hrest : ∀ line ∈ rest.head?, staysOpen line = false) :
    entry.withLines (texts.map Line.bare ++ rest) = entry.withLines (texts.map Line.bare) := by
  have hkept : ∀ line ∈ texts.map Line.bare, staysOpen line = true := by
    rw [List.forall_mem_map]
    exact fun text htext => (h text htext).passes.1
  have hnone : rest.takeWhile staysOpen = [] := by
    cases rest with
    | nil => rfl
    | cons line others => exact List.takeWhile_cons_of_neg (by simp [hrest line rfl])
  have hcontinuation : continuation (texts.map Line.bare ++ rest) =
      continuation (texts.map Line.bare) := by
    rw [continuation, List.takeWhile_append_of_pos hkept, hnone, List.append_nil, continuation,
      List.takeWhile_eq_self_iff.mpr hkept]
  rw [withLines, withLines, hcontinuation]

/-- There is one entry for each block, whatever the other blocks are. -/
theorem listed_blocks (blocks : List Block) :
    listed ((blocks.flatMap Block.lines).map Line.bare) = blocks.map Block.entry := by
  induction blocks with
  | nil => rfl
  | cons block others ih =>
    have hrest : ∀ line ∈ ((others.flatMap Block.lines).map Line.bare).head?,
        staysOpen line = false := by
      cases others with
      | nil => simp
      | cons next others =>
        obtain ⟨-, -, houter, hshown⟩ := outer_of_ofBullet?_eq_some next.reads
        intro line hline
        obtain rfl : Line.bare next.bullet = line := by simpa [Block.lines] using hline
        rw [staysOpen, hshown]
        simp [Line.bare, houter]
    obtain ⟨-, -, houter, hshown⟩ := outer_of_ofBullet?_eq_some block.reads
    have hbullet : ((Line.bare block.bullet).isShown &&
        isOuterBullet (Line.bare block.bullet).text) = true := by
      rw [hshown]
      exact houter
    rw [List.flatMap_cons, Block.lines, List.cons_append, List.map_cons, List.map_append, listed,
      if_pos hbullet, block.reads, listed_append_of_continues block.continues, ih,
      Option.map_some, withLines_append block.continues hrest]
    rfl

theorem fresh_of_nodup {closed entries : List EntityEntry}
    (h : ((closed ++ entries).map EntityEntry.name).Nodup) : fresh closed entries = entries := by
  induction entries generalizing closed with
  | nil => rfl
  | cons entry rest ih =>
    have hrest : ((closed ++ [entry] ++ rest).map EntityEntry.name).Nodup := by simpa using h
    have hnew : (closed.any fun known => known.name == entry.name) = false := by
      rw [List.map_append, List.nodup_append] at h
      rw [List.any_eq_false]
      intro known hknown
      simpa using h.2.2 known.name (List.mem_map_of_mem hknown) entry.name (by simp)
    rw [fresh, hnew, ih hrest]
    rfl

/-- The lines of a section that is made up of blocks. -/
def sectionLines (lead : List Text) (blocks : List Block) : List Text :=
  lead ++ blocks.flatMap Block.lines

variable {lead : List Text} {blocks : List Block}

theorem plain_of_mem_sectionLines (hlead : ∀ text ∈ lead, Continues text) :
    ∀ text ∈ sectionLines lead blocks,
      Fence.ofLine? text = none ∧ Heading.ofText? text = none := by
  intro text htext
  rw [sectionLines, List.mem_append, List.mem_flatMap] at htext
  obtain htext | ⟨block, -, htext⟩ := htext
  · exact (hlead text htext).2
  · obtain rfl | htext := List.mem_cons.mp htext
    · obtain ⟨hfence, hheading, -⟩ := outer_of_ofBullet?_eq_some block.reads
      exact ⟨hfence, hheading⟩
    · exact (block.continues text htext).2

theorem records_ofSection_blocks (hlead : ∀ text ∈ lead, Continues text)
    (hnames : (blocks.map Block.name).Nodup) :
    (ofSection ((sectionLines lead blocks).map Line.bare)).records = blocks.map Block.entry := by
  rw [records_ofSection, sectionLines, List.map_append, listed_append_of_continues hlead,
    listed_blocks]
  apply fresh_of_nodup
  rw [List.nil_append, List.map_map]
  exact hnames

end EntityEntry

namespace Entity

/-! ### Documents -/

open EntityEntry

/-- Entities are read from what a document says, whatever the places of its lines. -/
theorem exists_ofDocument?_of_divides {document : Text} {front body back : List Line}
    (h : Divides ((Line.scan document).map Line.unplaced) front body back) :
    ∃ found, ofDocument? document = some found ∧ found.records = (ofSection body).records := by
  have hsame := map_ofSection_padded (Padded.map_unplaced True (Line.scan document))
  rw [h.section?_eq, Option.map_some, Option.map_some] at hsame
  obtain ⟨found, hfound, hunplaced⟩ := Option.map_eq_some_iff.mp hsame
  refine ⟨found, hfound, ?_⟩
  simpa [Findings.unplaced] using congrArg Findings.records hunplaced

/-- The entity of an entry in a section that lists the names. -/
def among (names : List String) (entry : EntityEntry) : Entity :=
  ⟨entry.name, entry.description, (declaredIn entry).records,
    (statedIn entry (bySize names)).records⟩

theorem among_congr {names names' : List String} (h : ∀ name, name ∈ names ↔ name ∈ names') :
    among names = among names' := by
  funext entry
  rw [among, among, statedIn_eq, statedIn_eq, mentionsIn_congr h]

theorem records_ofSection_sectionLines {lead : List Text} {blocks : List Block}
    (hlead : ∀ text ∈ lead, Continues text) (hnames : (blocks.map Block.name).Nodup) :
    (ofSection ((sectionLines lead blocks).map Line.bare)).records =
      blocks.map fun block => among (blocks.map Block.name) block.entry := by
  rw [records_ofSection, records_ofSection_blocks hlead hnames, List.map_map, List.map_map]
  rfl

section Blocks

variable {document document' : Text} {front body back : List Line} {lead : List Text}
  {blocks blocks' : List Block}

/-- Blocks can be put in the place of others. -/
theorem exists_ofDocument?_of_blocks (hdivides : Divides (Line.scan document) front body back)
    (hlead : ∀ text ∈ lead, Continues text) (hbody : body.map Line.text = sectionLines lead blocks)
    (hnames : (blocks'.map Block.name).Nodup)
    (hdocument' : (Line.scan document').map Line.text =
      front.map Line.text ++ (sectionLines lead blocks' ++ back.map Line.text)) :
    ∃ found, ofDocument? document' = some found ∧
      found.records = blocks'.map fun block => among (blocks'.map Block.name) block.entry := by
  have hplain : ∀ text ∈ body.map Line.text,
      Fence.ofLine? text = none ∧ Heading.ofText? text = none := by
    rw [hbody]
    exact plain_of_mem_sectionLines hlead
  have hplain' : ∀ text ∈ sectionLines lead blocks',
      Fence.ofLine? text = none ∧ Heading.ofText? text = none := plain_of_mem_sectionLines hlead
  have hscan : (Line.scan document').map Line.unplaced = front.map Line.unplaced ++
      ((sectionLines lead blocks').map Line.bare ++ back.map Line.unplaced) := by
    rw [Line.map_unplaced_scan, hdocument']
    exact hdivides.ofTexts_exchange (fun text htext => (hplain text htext).1)
      fun text htext => (hplain' text htext).1
  have hdivides' : Divides ((Line.scan document').map Line.unplaced) (front.map Line.unplaced)
      ((sectionLines lead blocks').map Line.bare) (back.map Line.unplaced) := by
    rw [hscan]
    apply hdivides.unplaced.exchange
    · rw [List.forall_mem_map]
      intro line hline
      have hheading := (hplain line.text (List.mem_map_of_mem hline)).2
      rw [ofLine?_unplaced, Heading.ofLine?, hheading, ite_self]
    · rw [List.forall_mem_map]
      exact fun text htext => (hplain' text htext).2
  obtain ⟨found, hfound, hrecords⟩ := exists_ofDocument?_of_divides hdivides'
  exact ⟨found, hfound, hrecords.trans (records_ofSection_sectionLines hlead hnames)⟩

/-- Entities change places with their entries, and nothing else about them changes. -/
theorem ofDocument?_permuted (hdivides : Divides (Line.scan document) front body back)
    (hlead : ∀ text ∈ lead, Continues text) (hbody : body.map Line.text = sectionLines lead blocks)
    (hnames : (blocks.map Block.name).Nodup) (hperm : blocks'.Perm blocks)
    (hdocument' : (Line.scan document').map Line.text =
      front.map Line.text ++ (sectionLines lead blocks' ++ back.map Line.text)) :
    ∃ found found' record, ofDocument? document = some found ∧
      ofDocument? document' = some found' ∧ found.records = blocks.map record ∧
      found'.records = blocks'.map record ∧ ∀ block, (record block).name = block.name := by
  have hdocument : (Line.scan document).map Line.text =
      front.map Line.text ++ (sectionLines lead blocks ++ back.map Line.text) := by
    rw [hdivides.lines_eq, List.map_append, List.map_append, hbody]
  have hnames' : (blocks'.map Block.name).Nodup := (hperm.map Block.name).nodup_iff.mpr hnames
  have hsame : among (blocks'.map Block.name) = among (blocks.map Block.name) :=
    among_congr fun name => (hperm.map Block.name).mem_iff
  obtain ⟨found, hfound, hrecords⟩ :=
    exists_ofDocument?_of_blocks hdivides hlead hbody hnames hdocument
  obtain ⟨found', hfound', hrecords'⟩ :=
    exists_ofDocument?_of_blocks hdivides hlead hbody hnames' hdocument'
  rw [hsame] at hrecords'
  exact ⟨found, found', fun block => among (blocks.map Block.name) block.entry, hfound, hfound',
    hrecords, hrecords', fun _ => rfl⟩

end Blocks

/-- Two names of one length, with a blank line in front and an indented one in between. -/
theorem ofDocument?_permuted_cart :
    let document := ("# Key Entities\n\n- **Cart**: has many Item\n  Has `id: uuid`.\n" ++
      "- **Item**: belongs to Cart\n# Notes\n").toList
    let document' := ("# Key Entities\n\n- **Item**: belongs to Cart\n" ++
      "- **Cart**: has many Item\n  Has `id: uuid`.\n# Notes").toList
    ∃ found found' cart item, ofDocument? document = some found ∧
      ofDocument? document' = some found' ∧ found.records = [cart, item] ∧
      found'.records = [item, cart] ∧ cart.name = "Cart" ∧ item.name = "Item" := by
  intro document document'
  let cart : Block :=
    { bullet := "- **Cart**: has many Item".toList
      below := ["  Has `id: uuid`.".toList]
      opening := ⟨"Cart", "has many Item", "has many Item".toList, ⟨0, 25⟩⟩
      reads := by decide
      continues := by decide }
  let item : Block :=
    { bullet := "- **Item**: belongs to Cart".toList
      below := []
      opening := ⟨"Item", "belongs to Cart", "belongs to Cart".toList, ⟨0, 27⟩⟩
      reads := by decide
      continues := by decide }
  have hdivides : Divides (Line.scan document) [⟨"# Key Entities".toList, 0, 15, false⟩]
      [⟨[], 15, 16, false⟩, ⟨cart.bullet, 16, 42, false⟩,
        ⟨"  Has `id: uuid`.".toList, 42, 60, false⟩, ⟨item.bullet, 60, 88, false⟩]
      [⟨"# Notes".toList, 88, 96, false⟩] := by
    refine ⟨by decide, [], _, ⟨1, "Key Entities".toList⟩, rfl, rfl, ⟨?_, ?_⟩, ?_⟩ <;> decide +kernel
  have hbelow : ∀ text ∈ [[]], Continues text := by decide
  have hbody : ["".toList, cart.bullet, "  Has `id: uuid`.".toList, item.bullet] =
      sectionLines [[]] [cart, item] := rfl
  have hperm : [item, cart].Perm [cart, item] := .swap cart item []
  have hdocument' : (Line.scan document').map Line.text = ["# Key Entities".toList] ++
      (sectionLines [[]] [item, cart] ++ ["# Notes".toList]) := by decide
  obtain ⟨found, found', record, hfound, hfound', hrecords, hrecords', hname⟩ :=
    ofDocument?_permuted hdivides hbelow hbody (by decide) hperm hdocument'
  exact ⟨found, found', record cart, record item, hfound, hfound', hrecords, hrecords',
    hname cart, hname item⟩

end Entity

end DiagramSync
