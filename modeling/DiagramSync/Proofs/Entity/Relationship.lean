import DiagramSync.Entity.OfDocument
import DiagramSync.Proofs.Entity.Entry
import DiagramSync.Proofs.Entity.Mention
import Mathlib.Data.List.Forall2
import Mathlib.Data.List.Nodup

/-!
Relationships are drawn with care. Each one is stated by the text of its entity, a pair of
entities has one at most, and mentions that disagree draw none; the order of the mentions decides
about nothing but the label.
-/

namespace DiagramSync

open Text

/-! ### Lists without repetition -/

theorem nodup_eraseDups {α : Type} [BEq α] [LawfulBEq α] (list : List α) :
    list.eraseDups.Nodup := by
  cases list with
  | nil => exact List.nodup_nil
  | cons a rest =>
    rw [List.eraseDups_cons, List.nodup_cons]
    exact ⟨by simp, nodup_eraseDups (rest.filter fun b => !b == a)⟩
termination_by list.length
decreasing_by exact Nat.lt_succ_of_le (List.length_filter_le _ _)

theorem eraseDups_of_nodup {α : Type} [BEq α] [LawfulBEq α] {list : List α} (h : list.Nodup) :
    list.eraseDups = list := by
  induction list with
  | nil => rfl
  | cons a rest ih =>
    rw [List.nodup_cons] at h
    have hfilter : (rest.filter fun b => !b == a) = rest := by
      rw [List.filter_eq_self]
      intro b hb
      rw [Bool.not_eq_true', beq_eq_false_iff_ne]
      rintro rfl
      exact h.1 hb
    rw [List.eraseDups_cons, hfilter, ih h.2]

theorem map_flatMap_sublist {α β : Type} {f : α → List β} {g : β → α}
    (h : ∀ a, ((f a).map g).Sublist [a]) (list : List α) :
    ((list.flatMap f).map g).Sublist list := by
  induction list with
  | nil => exact List.Sublist.slnil
  | cons a rest ih =>
    rw [List.flatMap_cons, List.map_append]
    exact (h a).append ih

/-- The phrase with spaces for its dashes. -/
def Phrase.dashless (phrase : Phrase) : String :=
  String.ofList (phrase.text.toList.map fun c => if c = '-' then ' ' else c)

theorem Phrase.label_eq_dashless (phrase : Phrase) : phrase.label = phrase.dashless := by
  simp [label, dashless]

namespace Entity

/-! ### Mentions of one target -/

/-- Phrases that all say the same, at least one. -/
def Agree (cardinality : Cardinality) (phrases : List Phrase) : Prop :=
  phrases ≠ [] ∧ ∀ phrase ∈ phrases, phrase.cardinality = cardinality

/-- Phrases of which two say different things. -/
def Disagree (phrases : List Phrase) : Prop :=
  ∃ first ∈ phrases, ∃ second ∈ phrases, first.cardinality ≠ second.cardinality

instance (phrases : List Phrase) : Decidable (Disagree phrases) :=
  inferInstanceAs (Decidable (∃ first ∈ phrases, ∃ second ∈ phrases, _))

/-- The targets of mentions that disagree. -/
def disputed (mentions : List Mention) : List String :=
  (targets mentions).filter fun target => Disagree (phrasesFor target mentions)

/-- The phrases that lead to no entity, in order, each with what stands behind it. -/
def unresolved : List Mention → List (Phrase × String)
  | [] => []
  | .unresolved phrase reference :: rest => (phrase, reference) :: unresolved rest
  | .resolved .. :: rest => unresolved rest

variable {entry : EntityEntry} {target : String} {mentions mentions' : List Mention}

theorem mem_phrasesFor {phrase : Phrase} :
    phrase ∈ phrasesFor target mentions ↔ .resolved target phrase ∈ mentions := by
  rw [phrasesFor, List.mem_filterMap]
  constructor
  · rintro ⟨mention, hmention, hphrase⟩
    cases mention with
    | resolved name found =>
      obtain ⟨rfl, rfl⟩ : name = target ∧ found = phrase := by simpa using hphrase
      exact hmention
    | unresolved found reference => contradiction
  · exact fun hmention => ⟨_, hmention, by simp⟩

theorem mem_targets : target ∈ targets mentions ↔ phrasesFor target mentions ≠ [] := by
  rw [targets, List.mem_eraseDups, List.mem_filterMap]
  constructor
  · rintro ⟨mention, hmention, htarget⟩
    cases mention with
    | resolved name phrase =>
      obtain rfl : name = target := by simpa using htarget
      exact List.ne_nil_of_mem (mem_phrasesFor.mpr hmention)
    | unresolved phrase reference => contradiction
  · intro hne
    obtain ⟨phrase, hphrase⟩ := List.exists_mem_of_ne_nil _ hne
    exact ⟨_, mem_phrasesFor.mp hphrase, rfl⟩

/-- The order of the mentions decides about nothing but the order of the phrases. -/
theorem phrasesFor_perm (h : mentions'.Perm mentions) :
    (phrasesFor target mentions').Perm (phrasesFor target mentions) :=
  h.filterMap _

theorem all_cardinality_iff {first : Phrase} {others : List Phrase} :
    (others.all fun phrase => phrase.cardinality == first.cardinality) = true ↔
      ¬ Disagree (first :: others) := by
  rw [List.all_eq_true]
  simp only [beq_iff_eq]
  constructor
  · rintro hsame ⟨one, hone, two, htwo, hne⟩
    have hfirst : ∀ phrase ∈ first :: others, phrase.cardinality = first.cardinality :=
      List.forall_mem_cons.mpr ⟨rfl, hsame⟩
    exact hne ((hfirst one hone).trans (hfirst two htwo).symm)
  · intro hagree phrase hphrase
    by_contra hne
    exact hagree ⟨phrase, List.mem_cons_of_mem _ hphrase, first, List.mem_cons_self, hne⟩

theorem agree_iff {phrases : List Phrase} {cardinality : Cardinality} :
    Agree cardinality phrases ↔
      ¬ Disagree phrases ∧ phrases.head?.map Phrase.cardinality = some cardinality := by
  cases phrases with
  | nil => simp [Agree]
  | cons first others =>
    rw [← all_cardinality_iff, Agree, List.forall_mem_cons, List.all_eq_true]
    simp only [beq_iff_eq, List.head?_cons, Option.map_some, Option.some.injEq]
    constructor
    · rintro ⟨-, rfl, hothers⟩
      exact ⟨hothers, rfl⟩
    · rintro ⟨hothers, rfl⟩
      exact ⟨List.cons_ne_nil _ _, rfl, hothers⟩

theorem agree_perm {phrases phrases' : List Phrase} (h : phrases'.Perm phrases)
    {cardinality : Cardinality} : Agree cardinality phrases' ↔ Agree cardinality phrases := by
  rw [Agree, Agree, ← List.length_pos_iff, ← List.length_pos_iff, h.length_eq]
  simp only [h.mem_iff]

/-! ### Relationships from mentions -/

theorem relationshipTo_eq (entry : EntityEntry) (target : String) (phrases : List Phrase) :
    relationshipTo entry target phrases =
      if Disagree phrases then
        ⟨[], [conflictingCardinalities entry target]⟩
      else
        ⟨phrases.head?.toList.map fun first =>
          ⟨entry.name, target, first.cardinality, first.label⟩, []⟩ := by
  cases phrases with
  | nil => rfl
  | cons first others =>
    rw [relationshipTo]
    simp only [all_cardinality_iff, ite_not]
    rfl

/-- The relationships and warnings that mentions come to. -/
def ofMentions (entry : EntityEntry) (mentions : List Mention) : Findings Relationship :=
  let drawn := (targets mentions).map fun target =>
    relationshipTo entry target (phrasesFor target mentions)
  ⟨drawn.flatMap Findings.records,
    unresolvedWarnings entry mentions ++ drawn.flatMap Findings.diagnostics⟩

/-- The mentions in an entry's text, given the names of all entities. -/
def mentionsIn (names : List String) (entry : EntityEntry) : List Mention :=
  Mention.all (bySize names) entry.body

theorem statedIn_eq (names : List String) (entry : EntityEntry) :
    statedIn entry (bySize names) = ofMentions entry (mentionsIn names entry) :=
  rfl

theorem mem_records_relationshipTo {phrases : List Phrase} {relationship : Relationship} :
    relationship ∈ (relationshipTo entry target phrases).records ↔
      ¬ Disagree phrases ∧ ∃ first, phrases.head? = some first ∧
        relationship = ⟨entry.name, target, first.cardinality, first.label⟩ := by
  rw [relationshipTo_eq]
  by_cases hdisagree : Disagree phrases <;> simp [hdisagree, eq_comm]

/-- A relationship is drawn if the mentions of its target agree, and its label is that of the
first. -/
theorem mem_records_ofMentions {relationship : Relationship} :
    relationship ∈ (ofMentions entry mentions).records ↔
      ¬ Disagree (phrasesFor relationship.target mentions) ∧
        ∃ first, (phrasesFor relationship.target mentions).head? = some first ∧
          relationship = ⟨entry.name, relationship.target, first.cardinality, first.label⟩ := by
  rw [ofMentions, List.flatMap_map, List.mem_flatMap]
  simp only [mem_records_relationshipTo]
  constructor
  · rintro ⟨target, -, hagree, first, hfirst, rfl⟩
    exact ⟨hagree, first, hfirst, rfl⟩
  · rintro ⟨hagree, first, hfirst, heq⟩
    refine ⟨relationship.target, mem_targets.mpr fun hnil => ?_, hagree, first, hfirst, heq⟩
    simp [hnil] at hfirst

/-- Whether a relationship is drawn, and which, is a matter of what the mentions of its target
agree on. -/
theorem exists_drawn_iff {cardinality : Cardinality} :
    (∃ label, ⟨entry.name, target, cardinality, label⟩ ∈ (ofMentions entry mentions).records) ↔
      Agree cardinality (phrasesFor target mentions) := by
  simp only [mem_records_ofMentions, agree_iff, Relationship.mk.injEq, true_and,
    Option.map_eq_some_iff]
  constructor
  · rintro ⟨label, hagree, first, hfirst, hcardinality, -⟩
    exact ⟨hagree, first, hfirst, hcardinality.symm⟩
  · rintro ⟨hagree, first, hfirst, rfl⟩
    exact ⟨first.label, hagree, first, hfirst, rfl, rfl⟩

theorem nodup_targets_ofMentions (entry : EntityEntry) (mentions : List Mention) :
    ((ofMentions entry mentions).records.map Relationship.target).Nodup := by
  have hone : ∀ target, ((relationshipTo entry target (phrasesFor target mentions)).records.map
      Relationship.target).Sublist [target] := by
    intro target
    rw [relationshipTo_eq]
    split
    · exact List.nil_sublist _
    · cases (phrasesFor target mentions).head? <;> simp
  rw [ofMentions, List.flatMap_map]
  exact (map_flatMap_sublist hone (targets mentions)).nodup (nodup_eraseDups _)

/-! ### Mentions taken one by one -/

/-- One relationship for each mention of a target, if the mentions agree. -/
def candidatesTo (entry : EntityEntry) (target : String) (phrases : List Phrase) :
    List Relationship :=
  if Disagree phrases then
    []
  else
    phrases.map fun phrase => ⟨entry.name, target, phrase.cardinality, phrase.label⟩

/-- One relationship for each mention, target by target. -/
def candidates (entry : EntityEntry) (mentions : List Mention) : List Relationship :=
  (targets mentions).flatMap fun target =>
    candidatesTo entry target (phrasesFor target mentions)

variable {entity : Entity}

theorem foldl_relate_of_not_accepts {relationships : List Relationship}
    (h : ∀ relationship ∈ relationships, entity.accepts relationship = false) :
    relationships.foldl relate entity = entity := by
  induction relationships with
  | nil => rfl
  | cons relationship rest ih =>
    rw [List.forall_mem_cons] at h
    rw [List.foldl_cons, relate, h.1]
    exact ih h.2

theorem accepts_of_fresh {relationship : Relationship}
    (h : ∀ known ∈ entity.relationships, known.target ≠ relationship.target) :
    entity.accepts relationship = true := by
  rw [accepts, Bool.not_eq_true', List.any_eq_false]
  intro known hknown
  simp [Relationship.equivalent, h known hknown]

/-- The first mention of a target is related, and the others say the same. -/
theorem foldl_relate_candidatesTo (entry : EntityEntry) {target : String} (phrases : List Phrase)
    (h : ∀ known ∈ entity.relationships, known.target ≠ target) :
    (candidatesTo entry target phrases).foldl relate entity = { entity with
      relationships := entity.relationships ++ (relationshipTo entry target phrases).records } := by
  rw [candidatesTo, relationshipTo_eq]
  split
  · rw [List.append_nil]
    rfl
  · rename_i hagree
    cases phrases with
    | nil =>
      rw [List.head?_nil, Option.toList_none, List.map_nil, List.append_nil]
      rfl
    | cons first others =>
      have hsame := List.all_eq_true.mp (all_cardinality_iff.mpr hagree)
      have hfirst : entity.accepts ⟨entry.name, target, first.cardinality, first.label⟩ = true :=
        accepts_of_fresh h
      rw [List.map_cons, List.foldl_cons, relate, if_pos hfirst]
      refine foldl_relate_of_not_accepts (List.forall_mem_map.mpr fun phrase hphrase => ?_)
      simp [accepts, Relationship.equivalent, beq_iff_eq.mp (hsame phrase hphrase)]

/-- The induction is on the targets. None of those that are left has been related to. -/
theorem foldl_relate_flatMap (entry : EntityEntry) (phrasesFor : String → List Phrase)
    {targets : List String} (hnodup : targets.Nodup)
    (h : ∀ known ∈ entity.relationships, known.target ∉ targets) :
    (targets.flatMap fun target => candidatesTo entry target (phrasesFor target)).foldl relate
      entity = { entity with relationships := entity.relationships ++ targets.flatMap fun target =>
        (relationshipTo entry target (phrasesFor target)).records } := by
  induction targets generalizing entity with
  | nil =>
    rw [List.flatMap_nil, List.flatMap_nil, List.append_nil]
    rfl
  | cons target rest ih =>
    rw [List.nodup_cons] at hnodup
    have hfirst : ∀ known ∈ entity.relationships, known.target ≠ target := by
      rintro known hknown rfl
      exact h known hknown List.mem_cons_self
    have hrest : ∀ known ∈ entity.relationships ++
        (relationshipTo entry target (phrasesFor target)).records, known.target ∉ rest := by
      intro known hknown hmem
      obtain hknown | hknown := List.mem_append.mp hknown
      · exact h known hknown (List.mem_cons_of_mem target hmem)
      · obtain ⟨-, first, -, rfl⟩ := mem_records_relationshipTo.mp hknown
        exact hnodup.1 hmem
    rw [List.flatMap_cons, List.foldl_append, foldl_relate_candidatesTo entry _ hfirst,
      ih hnodup.2 hrest, List.flatMap_cons, List.append_assoc]

/-- Relating an entity mention by mention comes to one relationship for each target. -/
theorem foldl_relate_candidates (entry : EntityEntry) (mentions : List Mention)
    (h : entity.relationships = []) : (candidates entry mentions).foldl relate entity =
      { entity with relationships := (ofMentions entry mentions).records } := by
  have hnodup : (targets mentions).Nodup := nodup_eraseDups _
  rw [candidates, foldl_relate_flatMap entry _ hnodup (by simp [h]), h, List.nil_append,
    ofMentions, List.flatMap_map]

/-! ### Mentions of different targets -/

/-- Mentions that lead to the targets of links. -/
def resolvedLinks (links : List (Phrase × String)) : List Mention :=
  links.map fun link => .resolved link.2 link.1

theorem phrasesFor_resolvedLinks {links : List (Phrase × String)}
    (h : (links.map Prod.snd).Nodup) : ∀ link ∈ links,
      phrasesFor link.2 (resolvedLinks links) = [link.1] := by
  have hnone : ∀ {links : List (Phrase × String)} {target}, target ∉ links.map Prod.snd →
      phrasesFor target (resolvedLinks links) = [] := by
    intro links target htarget
    rw [← not_ne_iff, ← mem_targets, targets, List.mem_eraseDups]
    simpa [resolvedLinks, List.filterMap_map, Function.comp_def] using htarget
  induction links with
  | nil => exact List.forall_mem_nil _
  | cons link rest ih =>
    rw [List.map_cons, List.nodup_cons] at h
    rw [List.forall_mem_cons]
    have hcons : ∀ target, phrasesFor target (resolvedLinks (link :: rest)) =
        (if link.2 = target then [link.1] else []) ++ phrasesFor target (resolvedLinks rest) := by
      intro target
      by_cases htarget : link.2 = target <;> simp [phrasesFor, resolvedLinks, htarget]
    refine ⟨?_, fun other hother => ?_⟩
    · rw [hcons, if_pos rfl, hnone h.1]
      rfl
    · have hne : link.2 ≠ other.2 := fun heq => h.1 (heq ▸ List.mem_map_of_mem hother)
      rw [hcons, if_neg hne, ih h.2 other hother]
      rfl

theorem ofMentions_resolvedLinks (entry : EntityEntry) {links : List (Phrase × String)}
    (h : (links.map Prod.snd).Nodup) : ofMentions entry (resolvedLinks links) =
      ⟨links.map fun link => ⟨entry.name, link.2, link.1.cardinality, link.1.label⟩, []⟩ := by
  have htargets : targets (resolvedLinks links) = links.map Prod.snd := by
    rw [targets, resolvedLinks, List.filterMap_map]
    exact (congrArg List.eraseDups (congrFun List.filterMap_eq_map' links)).trans
      (eraseDups_of_nodup h)
  have hunresolved : unresolvedWarnings entry (resolvedLinks links) = [] := by
    simp [unresolvedWarnings, resolvedLinks]
  have hdrawn : (links.map Prod.snd).map (fun target =>
      relationshipTo entry target (phrasesFor target (resolvedLinks links))) =
        links.map fun link => ⟨[⟨entry.name, link.2, link.1.cardinality, link.1.label⟩], []⟩ := by
    rw [List.map_map]
    refine List.map_congr_left fun link hlink => ?_
    rw [Function.comp_apply, phrasesFor_resolvedLinks h link hlink]
    rfl
  rw [ofMentions, htargets, hunresolved, hdrawn, List.flatMap_map, List.flatMap_map]
  simp [List.map_eq_flatMap]

/-! ### Warnings -/

theorem diagnostics_ofMentions (entry : EntityEntry) (mentions : List Mention) :
    (ofMentions entry mentions).diagnostics = unresolvedWarnings entry mentions ++
      (disputed mentions).map (conflictingCardinalities entry) := by
  rw [ofMentions, disputed]
  refine congrArg (unresolvedWarnings entry mentions ++ ·) ?_
  induction targets mentions with
  | nil => rfl
  | cons target others ih =>
    rw [List.map_cons, List.flatMap_cons, ih, relationshipTo_eq, List.filter_cons]
    by_cases hdisagree : Disagree (phrasesFor target mentions) <;> simp [hdisagree]

theorem mem_unresolvedWarnings {diagnostic : Diagnostic} :
    diagnostic ∈ unresolvedWarnings entry mentions ↔ ∃ phrase reference,
      .unresolved phrase reference ∈ mentions ∧
        unresolvedTarget entry phrase reference = diagnostic := by
  rw [unresolvedWarnings, List.mem_filterMap]
  constructor
  · rintro ⟨mention, hmention, hwarning⟩
    cases mention with
    | resolved name phrase => contradiction
    | unresolved phrase reference =>
      exact ⟨phrase, reference, hmention, Option.some.inj hwarning⟩
  · rintro ⟨phrase, reference, hmention, rfl⟩
    exact ⟨_, hmention, rfl⟩

theorem unresolvedWarnings_eq (entry : EntityEntry) (mentions : List Mention) :
    unresolvedWarnings entry mentions =
      (unresolved mentions).map fun (phrase, reference) =>
        unresolvedTarget entry phrase reference := by
  induction mentions with
  | nil => rfl
  | cons mention rest ih =>
    cases mention with
    | resolved name phrase => exact ih
    | unresolved phrase reference => exact congrArg (List.cons _) ih

theorem code_of_mem_unresolvedWarnings {diagnostic : Diagnostic}
    (h : diagnostic ∈ unresolvedWarnings entry mentions) :
    diagnostic.code = some .unresolvedTarget := by
  obtain ⟨phrase, reference, -, rfl⟩ := mem_unresolvedWarnings.mp h
  rfl

theorem withCode_unresolvedTarget_ofMentions (entry : EntityEntry) (mentions : List Mention) :
    (ofMentions entry mentions).withCode .unresolvedTarget = unresolvedWarnings entry mentions := by
  rw [Findings.withCode, diagnostics_ofMentions, List.filter_append,
    List.filter_eq_self.mpr fun diagnostic hmem => by simp [code_of_mem_unresolvedWarnings hmem],
    List.filter_eq_nil_iff.mpr, List.append_nil]
  intro diagnostic hmem
  obtain ⟨target, -, rfl⟩ := List.mem_map.mp hmem
  simp [conflictingCardinalities, warning]

theorem withCode_conflictingCardinalities_ofMentions (entry : EntityEntry)
    (mentions : List Mention) :
    (ofMentions entry mentions).withCode .conflictingCardinalities =
      (disputed mentions).map (conflictingCardinalities entry) := by
  rw [Findings.withCode, diagnostics_ofMentions, List.filter_append,
    List.filter_eq_nil_iff.mpr fun diagnostic hmem => by simp [code_of_mem_unresolvedWarnings hmem],
    List.nil_append, List.filter_eq_self]
  intro diagnostic hmem
  obtain ⟨target, -, rfl⟩ := List.mem_map.mp hmem
  simp [conflictingCardinalities, warning]

/-- The diagnostic is a warning about the entry, of one of the kinds. -/
def WarnsOf (codes : List Code) (entry : EntityEntry) (diagnostic : Diagnostic) : Prop :=
  ∃ code ∈ codes, ∃ message help, diagnostic = warning entry code message help

theorem warnsOf_of_mem_declare {names : List Text} {hasPrimaryKey : Bool}
    {declarations : List Declaration} {diagnostic : Diagnostic}
    (h : diagnostic ∈ (declare entry names hasPrimaryKey declarations).diagnostics) :
    WarnsOf [.duplicateAttribute, .multiplePrimaryKeys] entry diagnostic := by
  induction declarations generalizing names hasPrimaryKey with
  | nil => contradiction
  | cons declaration rest ih =>
    rw [declare] at h
    split at h
    · obtain rfl | h := List.mem_cons.mp h
      · exact ⟨_, List.mem_cons_self, _, _, rfl⟩
      · exact ih h
    · split at h
      · obtain rfl | h := List.mem_cons.mp h
        · exact ⟨_, by simp, _, _, rfl⟩
        · exact ih h
      · exact ih h

theorem code_of_mem_declare {names : List Text} {hasPrimaryKey : Bool}
    {declarations : List Declaration} {diagnostic : Diagnostic}
    (h : diagnostic ∈ (declare entry names hasPrimaryKey declarations).diagnostics) :
    diagnostic.code = some .duplicateAttribute ∨ diagnostic.code = some .multiplePrimaryKeys := by
  obtain ⟨code, hcode, message, help, rfl⟩ := warnsOf_of_mem_declare h
  simpa [warning] using hcode

theorem warnsOf_of_mem_ofMentions {diagnostic : Diagnostic}
    (h : diagnostic ∈ (ofMentions entry mentions).diagnostics) :
    WarnsOf [.unresolvedTarget, .conflictingCardinalities] entry diagnostic := by
  rw [diagnostics_ofMentions] at h
  obtain h | h := List.mem_append.mp h
  · obtain ⟨phrase, reference, -, rfl⟩ := mem_unresolvedWarnings.mp h
    exact ⟨_, List.mem_cons_self, _, _, rfl⟩
  · obtain ⟨target, -, rfl⟩ := List.mem_map.mp h
    exact ⟨_, by simp, _, _, rfl⟩

theorem code_of_mem_ofMentions {diagnostic : Diagnostic}
    (h : diagnostic ∈ (ofMentions entry mentions).diagnostics) :
    diagnostic.code = some .unresolvedTarget ∨
      diagnostic.code = some .conflictingCardinalities := by
  obtain ⟨code, hcode, message, help, rfl⟩ := warnsOf_of_mem_ofMentions h
  simpa [warning] using hcode

theorem warnsOf_of_mem_ofSection {lines : List Line} {diagnostic : Diagnostic}
    (h : diagnostic ∈ (ofSection lines).diagnostics) :
    diagnostic ∈ (EntityEntry.ofSection lines).diagnostics ∨
      ∃ entry ∈ (EntityEntry.ofSection lines).records, ∃ codes,
        WarnsOf codes entry diagnostic := by
  simp only [ofSection, ofEntries, List.flatMap_map, List.mem_append, List.mem_flatMap] at h
  obtain h | ⟨entry, hentry, h⟩ := h
  · exact .inl h
  · refine .inr ⟨entry, hentry, ?_⟩
    obtain h | h := List.mem_append.mp h
    · exact ⟨_, warnsOf_of_mem_declare h⟩
    · exact ⟨_, warnsOf_of_mem_ofMentions h⟩

/-- Warnings come from the entries themselves and, entry by entry, from what is declared and what
is stated there. -/
theorem withCode_ofSection (code : Code) (lines : List Line) :
    let entries := (EntityEntry.ofSection lines).records
    (ofSection lines).withCode code = (EntityEntry.ofSection lines).withCode code ++
      entries.flatMap fun entry => (declaredIn entry).withCode code ++
        (statedIn entry (bySize (entries.map EntityEntry.name))).withCode code := by
  intro entries
  rw [Findings.withCode, ofSection, List.filter_append]
  refine congrArg ((EntityEntry.ofSection lines).withCode code ++ ·) ?_
  simp only [ofEntries, List.filter_flatMap, List.flatMap_map]
  exact List.flatMap_congr fun entry _ => List.filter_append _ _

/-- Warnings about relationships come from the mentions in the entries' texts alone. -/
theorem withCode_ofSection_of_stated {code : Code}
    (hcode : code = .unresolvedTarget ∨ code = .conflictingCardinalities) (lines : List Line) :
    let entries := (EntityEntry.ofSection lines).records
    (ofSection lines).withCode code = entries.flatMap fun entry =>
      (statedIn entry (bySize (entries.map EntityEntry.name))).withCode code := by
  intro entries
  have hentries : (EntityEntry.ofSection lines).withCode code = [] := by
    rw [Findings.withCode_eq_nil_iff]
    intro diagnostic hmem
    obtain h | h := EntityEntry.code_of_mem_collect hmem <;> obtain rfl | rfl := hcode <;> simp [h]
  have hattributes : ∀ entry, (declaredIn entry).withCode code = [] := by
    intro entry
    rw [Findings.withCode_eq_nil_iff]
    intro diagnostic hmem
    obtain h | h := code_of_mem_declare hmem <;> obtain rfl | rfl := hcode <;> simp [h]
  rw [withCode_ofSection, hentries, List.nil_append]
  simp only [hattributes, List.nil_append, entries]

/-! ### Entities of a section -/

theorem records_ofSection (lines : List Line) :
    let entries := (EntityEntry.ofSection lines).records
    (ofSection lines).records = entries.map fun entry =>
      ⟨entry.name, entry.description, (declaredIn entry).records,
        (statedIn entry (bySize (entries.map EntityEntry.name))).records⟩ := by
  intro entries
  rw [ofSection, ofEntries, List.flatMap_map]
  exact List.map_eq_flatMap.symm

/-- The entity of an entry has no relationships but those that its mentions agree on. -/
structure Conservative (names : List String) (entry : EntityEntry) (entity : Entity) : Prop where
  name_eq : entity.name = entry.name
  source_eq : ∀ relationship ∈ entity.relationships, relationship.source = entity.name
  target_mem : ∀ relationship ∈ entity.relationships, relationship.target ∈ names
  stated : ∀ relationship ∈ entity.relationships, ∃ phrase ∈ Phrase.all,
    phrase.cardinality = relationship.cardinality ∧
      States (Mention.plainProse entry.body) phrase relationship.target
  drawn_iff : ∀ target cardinality,
    (∃ label, ⟨entity.name, target, cardinality, label⟩ ∈ entity.relationships) ↔
      Agree cardinality (phrasesFor target (mentionsIn names entry))
  label_eq : ∀ relationship ∈ entity.relationships,
    (phrasesFor relationship.target (mentionsIn names entry)).head?.map Phrase.dashless =
      some relationship.label
  /-- Relating the entity mention by mention comes to the same. -/
  related : (candidates entry (mentionsIn names entry)).foldl relate
    { entity with relationships := [] } = entity
  /-- The order of the mentions does not matter for what is drawn. -/
  drawn_perm : ∀ mentions, mentions.Perm (mentionsIn names entry) → ∀ target cardinality,
    (∃ label, ⟨entity.name, target, cardinality, label⟩ ∈ (ofMentions entry mentions).records) ↔
      ∃ label, ⟨entity.name, target, cardinality, label⟩ ∈ entity.relationships

theorem mem_bySize {names : List String} {name : String} : name ∈ bySize names ↔ name ∈ names := by
  rw [bySize, List.mem_mergeSort]

theorem conservative_of_relationships_eq {names : List String} {entity : Entity}
    (hname : entity.name = entry.name)
    (hrelationships : entity.relationships = (statedIn entry (bySize names)).records) :
    Conservative names entry entity := by
  rw [statedIn_eq] at hrelationships
  have hmember : ∀ relationship ∈ entity.relationships, ∃ first,
      (phrasesFor relationship.target (mentionsIn names entry)).head? = some first ∧
        relationship = ⟨entity.name, relationship.target, first.cardinality, first.label⟩ := by
    intro relationship hmem
    rw [hrelationships, mem_records_ofMentions] at hmem
    rw [hname]
    exact hmem.2
  have hstated : ∀ relationship ∈ entity.relationships, relationship.target ∈ names ∧
      ∃ phrase ∈ Phrase.all, phrase.cardinality = relationship.cardinality ∧
        States (Mention.plainProse entry.body) phrase relationship.target := by
    intro relationship hmem
    obtain ⟨first, hfirst, heq⟩ := hmember relationship hmem
    obtain ⟨hknown, hvocabulary, hstates⟩ :=
      Mention.states_of_mem_all (mem_phrasesFor.mp (List.mem_of_mem_head? hfirst))
    refine ⟨mem_bySize.mp hknown, first, hvocabulary, ?_, hstates⟩
    rw [heq]
  constructor
  case name_eq => exact hname
  case source_eq =>
    intro relationship hmem
    obtain ⟨first, -, heq⟩ := hmember relationship hmem
    rw [heq]
  case target_mem => exact fun relationship hmem => (hstated relationship hmem).1
  case stated => exact fun relationship hmem => (hstated relationship hmem).2
  case drawn_iff =>
    intro target cardinality
    rw [hrelationships, hname]
    exact exists_drawn_iff
  case label_eq =>
    intro relationship hmem
    obtain ⟨first, hfirst, heq⟩ := hmember relationship hmem
    rw [hfirst, heq]
    exact congrArg some first.label_eq_dashless.symm
  case related =>
    rw [foldl_relate_candidates entry _ rfl, ← hrelationships]
  case drawn_perm =>
    intro mentions hperm target cardinality
    rw [hrelationships, hname, exists_drawn_iff, exists_drawn_iff]
    exact agree_perm (phrasesFor_perm hperm)

theorem names_ofSection (lines : List Line) : (ofSection lines).records.map Entity.name =
    (EntityEntry.ofSection lines).records.map EntityEntry.name := by
  rw [records_ofSection, List.map_map]
  rfl

theorem nodup_names_ofSection (lines : List Line) :
    ((ofSection lines).records.map Entity.name).Nodup := by
  rw [names_ofSection]
  exact EntityEntry.nodup_names_ofSection lines

theorem conservative_ofSection (lines : List Line) :
    List.Forall₂ (Conservative ((ofSection lines).records.map Entity.name))
      (EntityEntry.ofSection lines).records (ofSection lines).records := by
  rw [names_ofSection, records_ofSection, List.forall₂_map_right_iff, List.forall₂_same]
  exact fun entry _ => conservative_of_relationships_eq rfl rfl

theorem source_and_target_ofSection {lines : List Line} {entity : Entity}
    (hentity : entity ∈ (ofSection lines).records) {relationship : Relationship}
    (hmem : relationship ∈ entity.relationships) :
    relationship.source = entity.name ∧
      relationship.target ∈ (ofSection lines).records.map Entity.name := by
  obtain ⟨entry, hconservative⟩ : ∃ entry,
      Conservative ((ofSection lines).records.map Entity.name) entry entity := by
    rw [records_ofSection] at hentity
    obtain ⟨entry, -, rfl⟩ := List.mem_map.mp hentity
    rw [names_ofSection]
    exact ⟨entry, conservative_of_relationships_eq rfl rfl⟩
  exact ⟨hconservative.source_eq relationship hmem, hconservative.target_mem relationship hmem⟩

theorem nodup_pairs {entities : List Entity} (hnames : (entities.map Entity.name).Nodup)
    (hsource : ∀ entity ∈ entities, ∀ relationship ∈ entity.relationships,
      relationship.source = entity.name)
    (htargets : ∀ entity ∈ entities, (entity.relationships.map Relationship.target).Nodup) :
    ((entities.flatMap Entity.relationships).map fun relationship =>
      (relationship.source, relationship.target)).Nodup := by
  rw [List.map_flatMap, List.nodup_flatMap]
  constructor
  · intro entity hentity
    apply List.Nodup.of_map Prod.snd
    rw [List.map_map]
    exact htargets entity hentity
  · refine (List.pairwise_map.mp hnames).imp_of_mem fun {first second} hfirst hsecond hne => ?_
    rintro ⟨source, target⟩ hpair hpair'
    obtain ⟨one, hone, heq⟩ := List.mem_map.mp hpair
    obtain ⟨two, htwo, heq'⟩ := List.mem_map.mp hpair'
    apply hne
    rw [← hsource first hfirst one hone, ← hsource second hsecond two htwo]
    exact (Prod.mk.inj (heq.trans heq'.symm)).1

/-- Relationships between the entities of a document are stated by the text of their source, with
one for a pair of entities at most. There is one warning for each mention that leads nowhere and
one for each target of mentions that disagree. -/
theorem ofDocument?_relationships {document : Text} {found : Findings Entity}
    (h : ofDocument? document = some found) :
    ∃ lines, EntityEntry.section? (Line.scan document) = some lines ∧
      let entries := (EntityEntry.ofSection lines).records
      let names := found.records.map Entity.name
      (∀ entry ∈ entries, entry.StandsIn lines) ∧
        List.Forall₂ (Conservative names) entries found.records ∧
        ((found.records.flatMap Entity.relationships).map fun relationship =>
          (relationship.source, relationship.target)).Nodup ∧
        (found.withCode .unresolvedTarget = entries.flatMap fun entry =>
          (unresolved (mentionsIn names entry)).map fun (phrase, reference) =>
            unresolvedTarget entry phrase reference) ∧
        found.withCode .conflictingCardinalities = entries.flatMap fun entry =>
          (disputed (mentionsIn names entry)).map (conflictingCardinalities entry) := by
  obtain ⟨lines, hlines, rfl⟩ := Option.map_eq_some_iff.mp h
  refine ⟨lines, hlines, ?_, ?_, ?_, ?_, ?_⟩
  · exact fun entry => EntityEntry.standsIn_of_mem_ofSection
  · exact conservative_ofSection lines
  · apply nodup_pairs
    · exact nodup_names_ofSection lines
    · exact fun entity hentity relationship hmem =>
        (source_and_target_ofSection hentity hmem).1
    · rw [records_ofSection, List.forall_mem_map]
      exact fun entry _ => nodup_targets_ofMentions entry _
  · rw [withCode_ofSection_of_stated (.inl rfl), names_ofSection]
    refine List.flatMap_congr fun entry _ => ?_
    exact (withCode_unresolvedTarget_ofMentions entry _).trans (unresolvedWarnings_eq entry _)
  · rw [withCode_ofSection_of_stated (.inr rfl), names_ofSection]
    exact List.flatMap_congr fun entry _ => withCode_conflictingCardinalities_ofMentions entry _

/-- Two mentions of orders agree, two of users do not, and things are no entity. -/
theorem ofDocument?_relationships_shop :
    let document : Text := ("## Key Entities\n\n" ++
      "- **User**: Has Many of the Order. It\n  *has one or more* Order.\n" ++
      "- **Order**: has one User. It belongs to User, owns many things.\n").toList
    ∃ found user order, ofDocument? document = some found ∧ found.records = [user, order] ∧
      (∃ label, ⟨"User", "Order", .oneToMany, label⟩ ∈ user.relationships) ∧
      (∀ cardinality, ¬ ∃ label, ⟨"Order", "User", cardinality, label⟩ ∈ order.relationships) ∧
      (found.withCode .unresolvedTarget).map Diagnostic.message =
        ["entity `Order`: `owns many things` does not name a known entity"] ∧
      (found.withCode .conflictingCardinalities).map Diagnostic.message =
        ["conflicting cardinalities between `Order` and `User`"] := by
  intro document
  obtain ⟨found, hfound⟩ : ∃ found, ofDocument? document = some found :=
    Option.isSome_iff_exists.mp (by decide +kernel)
  obtain ⟨lines, hlines, -, hconservative, -, hunresolved, hconflicting⟩ :=
    ofDocument?_relationships hfound
  have hentries : (EntityEntry.section? (Line.scan document)).map (fun lines =>
      (EntityEntry.ofSection lines).records.map fun entry => (entry.name, entry.body)) =
        some [("User", "Has Many of the Order. It\n*has one or more* Order.".toList),
          ("Order", "has one User. It belongs to User, owns many things.".toList)] := by
    decide +kernel
  rw [hlines, Option.map_some, Option.some_inj] at hentries
  generalize (EntityEntry.ofSection lines).records = entries at *
  obtain ⟨first, rest, rfl, hfirst, hrest⟩ := List.map_eq_cons_iff.mp hentries
  obtain ⟨second, rest, rfl, hsecond, hnil⟩ := List.map_eq_cons_iff.mp hrest
  obtain rfl := List.map_eq_nil_iff.mp hnil
  obtain ⟨hfirstName, hfirstBody⟩ := Prod.mk.inj hfirst
  obtain ⟨hsecondName, hsecondBody⟩ := Prod.mk.inj hsecond
  obtain ⟨user, others, huser, hothers, hrecords⟩ := List.forall₂_cons_left_iff.mp hconservative
  obtain ⟨order, others, horder, hnil, rfl⟩ := List.forall₂_cons_left_iff.mp hothers
  obtain rfl := List.forall₂_nil_left_iff.mp hnil
  have huserName := huser.name_eq.trans hfirstName
  have horderName := horder.name_eq.trans hsecondName
  have hknown : bySize (found.records.map Entity.name) = ["Order", "User"] := by
    rw [hrecords, List.map_cons, List.map_cons, List.map_nil, huserName, horderName]
    cbv
  have hfirstMentions : mentionsIn (found.records.map Entity.name) first =
      [.resolved "Order" ⟨"has many", .oneToMany⟩,
        .resolved "Order" ⟨"has one or more", .oneToMany⟩] := by
    rw [mentionsIn, hknown, hfirstBody]
    decide +kernel
  have hsecondMentions : mentionsIn (found.records.map Entity.name) second =
      [.resolved "User" ⟨"has one", .oneToOne⟩, .resolved "User" ⟨"belongs to", .manyToOne⟩,
        .unresolved ⟨"owns many", .oneToMany⟩ "things"] := by
    rw [mentionsIn, hknown, hsecondBody]
    decide +kernel
  have hdrawn := huser.drawn_iff "Order" .oneToMany
  have hnone := horder.drawn_iff "User"
  rw [hfirstMentions, huserName] at hdrawn
  rw [hsecondMentions, horderName] at hnone
  refine ⟨found, user, order, hfound, hrecords, hdrawn.mpr (agree_iff.mpr (by decide)), ?_, ?_, ?_⟩
  · intro cardinality hmem
    exact absurd (agree_iff.mp ((hnone cardinality).mp hmem)).1 (by decide)
  · rw [hunresolved, List.flatMap_cons, List.flatMap_cons, hfirstMentions, hsecondMentions]
    simp [unresolved, unresolvedTarget, warning, hsecondName]
    decide
  · have hagreed : disputed (mentionsIn (found.records.map Entity.name) first) = [] := by
      rw [hfirstMentions]
      decide
    have hdisputed : disputed (mentionsIn (found.records.map Entity.name) second) = ["User"] := by
      rw [hsecondMentions]
      decide
    rw [hconflicting, List.flatMap_cons, List.flatMap_cons, hagreed, hdisputed]
    simp [conflictingCardinalities, warning, hsecondName]
    decide

end Entity

end DiagramSync
