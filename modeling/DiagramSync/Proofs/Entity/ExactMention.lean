import DiagramSync.Proofs.Entity.Longest
import DiagramSync.Proofs.Entity.Prose
import DiagramSync.Proofs.Entity.Section

/-!
Mentions of a name as it is written. They are looked for in prose without the marks of emphasis and
code, while names keep theirs: the mention is found unless the name holds such a mark.
-/

namespace DiagramSync

open Text

/-! ### Marks that are left out -/

namespace Text

theorem count_replaceAll_lt {pattern : Text} {c : Char} (hc : c ∈ pattern) {text : Text}
    (h : pattern <:+: text) : (replaceAll pattern [] text).count c < text.count c := by
  fun_induction replaceAll pattern [] text with
  | case1 =>
    rw [List.infix_nil] at h
    simp [h] at hc
  | case2 d rest hbegins =>
    obtain ⟨behind, hbehind⟩ : pattern <+: d :: rest := List.isPrefixOf_iff_prefix.mp hbegins
    have hdrop : rest.drop (pattern.length - 1) = behind := by
      have hlength : 0 < pattern.length := List.length_pos_of_mem hc
      have hcons := congrArg (List.drop pattern.length) hbehind
      rw [List.drop_left, List.drop_cons hlength] at hcons
      exact hcons.symm
    have hle := (Mention.replaceAll_sublist pattern behind).count_le c
    have hpos := List.count_pos_iff.mpr hc
    rw [hdrop, ← hbehind, List.nil_append, List.count_append]
    omega
  | case3 d rest hbegins ih =>
    have hrest : pattern <:+: rest := by
      obtain hprefix | hrest := List.infix_cons_iff.mp h
      · exact absurd (List.isPrefixOf_iff_prefix.mpr hprefix) hbegins
      · exact hrest
    rw [List.count_cons, List.count_cons]
    exact Nat.add_lt_add_right (ih hrest) _

end Text

/-! ### Where a name is found -/

theorem LeadsTo.isInfix {name text : Text} {fillers : Nat} (h : LeadsTo name fillers text) :
    name <:+: text := by
  induction h with
  | arrive white rest => exact ⟨white, rest, List.append_assoc ..⟩
  | pass white word rest hwhite hfiller hhead hleads ih =>
    exact ih.trans ((List.suffix_append word rest).trans (List.suffix_append white _)).isInfix

theorem States.isInfix {prose : Text} {phrase : Phrase} {target : String}
    (h : States prose phrase target) :
    target.toList <:+: prose := by
  obtain ⟨before, matched, after, rfl, -, -, -, hleads⟩ := h
  exact hleads.isInfix.trans
    ((List.suffix_append matched after).trans (List.suffix_append before _)).isInfix

namespace Mention

/-- The text holds no mark that is left out of prose. -/
def Bare (text : Text) : Prop :=
  '*' ∉ text ∧ '\x60' ∉ text ∧ ¬ "__".toList <:+: text

theorem Bare.plainProse_eq {text : Text} (h : Bare text) : plainProse text = text := by
  obtain ⟨hstar, hspan, hline⟩ := h
  have hstrong : replaceAll "**".toList [] text = text := replaceAll_of_not_mem hstar
  rw [plainProse, hstrong, replaceAll_of_not_within hline, remove, List.filter_eq_self]
  intro c hc
  have hne : c ≠ '*' ∧ c ≠ '\x60' := by
    constructor <;> rintro rfl <;> contradiction
  simp [hne]

theorem not_mem_plainProse (text : Text) : '*' ∉ plainProse text ∧ '\x60' ∉ plainProse text := by
  constructor <;> exact fun hmem => absurd (List.mem_filter.mp hmem).2 (by decide)

/-- Two underscores that follow each other go, unless stars come between them. -/
theorem count_plainProse_lt {text : Text} (hstar : '*' ∉ text) (h : "__".toList <:+: text) :
    (plainProse text).count '_' < text.count '_' := by
  have hstrong : replaceAll "**".toList [] text = text := replaceAll_of_not_mem hstar
  rw [plainProse, hstrong]
  exact (List.filter_sublist.count_le '_').trans_lt (count_replaceAll_lt (by decide) h)

/-! ### Having many of another entity -/

variable {names : List String} {name : String}

/-- The words in front of the name. -/
def hasMany : Phrase :=
  ⟨"has many", .oneToMany⟩

theorem plainProse_hasMany (text : Text) :
    plainProse ("has many ".toList ++ text) = "has many ".toList ++ plainProse text := by
  have hplain : plainProse hasMany.text.toList = hasMany.text.toList :=
    Bare.plainProse_eq (by simp [Bare]; decide)
  have happend := plainProse_append_cons (c := ' ') (by decide) hasMany.text.toList text
  rw [hplain] at happend
  simpa [hasMany] using happend

/-- A name that is found in the prose about it has lost no mark. -/
theorem bare_of_isInfix {name : Text} (h : name <:+: plainProse ("has many ".toList ++ name)) :
    Bare name := by
  have hmarks := not_mem_plainProse ("has many ".toList ++ name)
  have hstar : '*' ∉ name := fun hmem => hmarks.1 (h.subset hmem)
  refine ⟨hstar, fun hmem => hmarks.2 (h.subset hmem), fun hline => ?_⟩
  have hle := h.sublist.count_le '_'
  have hlt := count_plainProse_lt hstar hline
  have hnone : "has many ".toList.count '_' = 0 := by decide
  rw [plainProse_hasMany, List.count_append, hnone] at hle
  omega

theorem phrase?_hasMany (behind : Text) :
    phrase? (hasMany.text.toList ++ ' ' :: behind) = some (hasMany, ' ' :: behind) := by
  have hlongest : ∀ other ∈ Phrase.all, hasMany.text.toList <+: other.text.toList →
      other = hasMany := by decide
  refine phrase?_of_only (by decide) rfl fun other hother hlength after hafter => ?_
  exact hlongest other hother (begins_of_afterPhrase? (by decide) hother hlength hafter).2.1

/-- A name that is a whole text is found there: no other one that stands there is longer. -/
theorem nameAt?_self (h : name ∈ names) :
    nameAt? (Entity.bySize names) name.toList = some (name, []) := by
  refine nameAt?_bySize_eq_some_iff.mpr ⟨h, ⟨(List.append_nil _).symm, rfl⟩, ?_⟩
  rintro other - rest ⟨hother, -⟩
  rw [utf8ByteSize_eq_size, utf8ByteSize_eq_size, hother, size_append]
  omega

theorem all_hasMany (hknown : name ∈ names) (hbare : Bare name.toList)
    (hhead : ∀ c ∈ name.toList.head?, isWhite c = false) :
    all (Entity.bySize names) ("has many ".toList ++ name.toList) = [.resolved name hasMany] := by
  have hspace : ∀ c ∈ [' '], isWhite c = true := by decide
  have hstart : trimStart (' ' :: name.toList) = name.toList := trimStart_append hspace hhead
  have hfound : nameAt? (Entity.bySize names) (trimStart (' ' :: name.toList)) =
      some (name, []) := by
    rw [hstart, nameAt?_self hknown]
  have hat : at? (Entity.bySize names) (hasMany.text.toList ++ ' ' :: name.toList) =
      some (.resolved name hasMany, []) := by
    rw [at?, phrase?_hasMany]
    dsimp only
    rw [resolve_of_nameAt?_eq_some hfound]
  have htext : hasMany.text.toList ++ ' ' :: name.toList =
      'h' :: (("as many ".toList ++ name.toList) ++ []) := by
    simp [hasMany]
  rw [htext] at hat
  obtain ⟨wordStart, hscan⟩ := exists_scan_of_at? hat
  rw [all, plainProse_hasMany, hbare.plainProse_eq]
  rw [← htext] at hscan
  simpa [hasMany, scan] using hscan

end Mention

namespace EntityEntry

theorem isWhite_head?_bareName (raw : Text) : ∀ c ∈ (bareName raw).head?, isWhite c = false := by
  intro c hc
  have hbegins : bareName raw <+: trimStart raw :=
    ((trimEndWhere_begins _ _).trans (trimEndWhere_begins _ _)).trans (trimEndWhere_begins _ _)
  obtain ⟨rest, hrest⟩ := hbegins
  apply forall_mem_head?_dropWhile isWhite raw
  obtain ⟨others, hothers⟩ := List.head?_eq_some_iff.mp hc
  rw [← trimStart, ← hrest, hothers]
  rfl

theorem isWhite_head?_of_mem_ofSection {lines : List Line} {entry : EntityEntry}
    (h : entry ∈ (ofSection lines).records) : ∀ c ∈ entry.name.toList.head?, isWhite c = false := by
  obtain ⟨before, line, rest, raw, description, -, -, -, -, hname, -⟩ :=
    standsIn_of_mem_ofSection h
  rw [hname, String.toList_ofList]
  exact isWhite_head?_bareName raw

end EntityEntry

namespace Entity

theorem span_of_mem_unresolvedWarnings {entry : EntityEntry} {mentions : List Mention}
    {diagnostic : Diagnostic} (h : diagnostic ∈ unresolvedWarnings entry mentions) :
    ∀ label ∈ diagnostic.labels, label.span = entry.span := by
  obtain ⟨phrase, reference, -, rfl⟩ := mem_unresolvedWarnings.mp h
  exact List.forall_mem_singleton.mpr rfl

/-- An entry is warned of mentions that lead nowhere if there are such mentions in its own text. -/
theorem unresolvedTarget_not_at_span {document : Text} {lines : List Line}
    (hlines : EntityEntry.section? (Line.scan document) = some lines) {owner : EntityEntry}
    (howner : owner ∈ (EntityEntry.ofSection lines).records)
    (hnone : unresolvedWarnings owner
      (mentionsIn ((EntityEntry.ofSection lines).records.map EntityEntry.name) owner) = []) :
    ∀ diagnostic ∈ (ofSection lines).withCode .unresolvedTarget, ∀ label ∈ diagnostic.labels,
      label.span ≠ owner.span := by
  rw [withCode_ofSection_of_stated (.inl rfl)]
  intro diagnostic hdiagnostic label hlabel hspan
  obtain ⟨entry, hentry, hwarning⟩ := List.mem_flatMap.mp hdiagnostic
  rw [statedIn_eq, withCode_unresolvedTarget_ofMentions] at hwarning
  have hplace : entry.span = owner.span :=
    (span_of_mem_unresolvedWarnings hwarning label hlabel).symm.trans hspan
  obtain rfl := List.inj_on_of_nodup_map (EntityEntry.nodup_span_ofSection hlines) hentry howner
    hplace
  rw [hnone] at hwarning
  contradiction

/-- An entity whose text is nothing but that it has many of another one is related to that one,
without a warning, if the other one's name holds no mark of emphasis or code; and if it holds one,
it is not. -/
theorem ofDocument?_exact_mention {document : Text} {lines : List Line}
    (hlines : EntityEntry.section? (Line.scan document) = some lines)
    {owner target : EntityEntry} (howner : owner ∈ (EntityEntry.ofSection lines).records)
    (htarget : target ∈ (EntityEntry.ofSection lines).records)
    (hbody : owner.body = "has many ".toList ++ target.name.toList) :
    ∃ found entity, ofDocument? document = some found ∧ entity ∈ found.records ∧
      entity.name = owner.name ∧
      (Mention.Bare target.name.toList ↔
        (∃ label, entity.relationships = [⟨owner.name, target.name, .oneToMany, label⟩]) ∧
          ∀ diagnostic ∈ found.withCode .unresolvedTarget, ∀ label ∈ diagnostic.labels,
            label.span ≠ owner.span) := by
  let names := (EntityEntry.ofSection lines).records.map EntityEntry.name
  let entity : Entity := ⟨owner.name, owner.description, (declaredIn owner).records,
    (statedIn owner (bySize names)).records⟩
  have hfound : ofDocument? document = some (ofSection lines) := by
    rw [ofDocument?, hlines]
    rfl
  have hentity : entity ∈ (ofSection lines).records := by
    rw [records_ofSection]
    exact List.mem_map_of_mem howner
  refine ⟨ofSection lines, entity, hfound, hentity, rfl, ?_, ?_⟩
  · intro hbare
    have hmentions : mentionsIn names owner =
        resolvedLinks [(Mention.hasMany, target.name)] := by
      rw [mentionsIn, hbody, Mention.all_hasMany (List.mem_map_of_mem htarget) hbare
        (EntityEntry.isWhite_head?_of_mem_ofSection htarget)]
      rfl
    have hstated : ofMentions owner (resolvedLinks [(Mention.hasMany, target.name)]) =
        ⟨[⟨owner.name, target.name, .oneToMany, Mention.hasMany.label⟩], []⟩ :=
      ofMentions_resolvedLinks owner (List.nodup_singleton target.name)
    constructor
    · refine ⟨Mention.hasMany.label, ?_⟩
      dsimp only [entity]
      rw [statedIn_eq, hmentions, hstated]
    · apply unresolvedTarget_not_at_span hlines howner
      rw [hmentions]
      rfl
  · rintro ⟨⟨label, hrelationships⟩, -⟩
    have hconservative : Conservative names owner entity :=
      conservative_of_relationships_eq rfl rfl
    obtain ⟨phrase, -, -, hstates⟩ :=
      hconservative.stated _ (hrelationships ▸ List.mem_singleton_self _)
    rw [hbody] at hstates
    exact Mention.bare_of_isInfix hstates.isInfix

/-- A name of two words, and another name that it begins with. -/
theorem ofDocument?_exact_mention_order :
    let document :=
      "## Key Entities\n- **Order**: x\n- **Order Item**: y\n- **User**: has many Order Item".toList
    ∃ lines owner target, EntityEntry.section? (Line.scan document) = some lines ∧
      owner ∈ (EntityEntry.ofSection lines).records ∧
      target ∈ (EntityEntry.ofSection lines).records ∧
      owner.body = "has many ".toList ++ target.name.toList ∧
      ∃ found entity, ofDocument? document = some found ∧ entity ∈ found.records ∧
        entity.name = "User" ∧
        (∃ label, entity.relationships = [⟨"User", "Order Item", .oneToMany, label⟩]) ∧
        ∀ diagnostic ∈ found.withCode .unresolvedTarget, ∀ label ∈ diagnostic.labels,
          label.span ≠ owner.span := by
  intro document
  have hentries : (EntityEntry.section? (Line.scan document)).map (fun lines =>
      (EntityEntry.ofSection lines).records) =
        some [⟨"Order", "x", "x".toList, ⟨16, 30⟩⟩, ⟨"Order Item", "y", "y".toList, ⟨31, 50⟩⟩,
          ⟨"User", "has many Order Item", "has many Order Item".toList, ⟨51, 82⟩⟩] := by
    decide +kernel
  obtain ⟨lines, hlines, hrecords⟩ := Option.map_eq_some_iff.mp hentries
  let target : EntityEntry := ⟨"Order Item", "y", "y".toList, ⟨31, 50⟩⟩
  let owner : EntityEntry :=
    ⟨"User", "has many Order Item", "has many Order Item".toList, ⟨51, 82⟩⟩
  have howner : owner ∈ (EntityEntry.ofSection lines).records := by simp [hrecords, owner]
  have htarget : target ∈ (EntityEntry.ofSection lines).records := by simp [hrecords, target]
  have hbare : Mention.Bare target.name.toList := by
    refine ⟨?_, ?_, ?_⟩ <;> decide
  obtain ⟨found, entity, hfound, hentity, hname, hmention⟩ :=
    ofDocument?_exact_mention hlines howner htarget (by decide)
  exact ⟨lines, owner, target, hlines, howner, htarget, by decide, found, entity, hfound, hentity,
    hname, hmention.mp hbare⟩

/-- A name in a code span is not found in the words that repeat it. -/
theorem ofDocument?_exact_mention_span :
    let document :=
      "## Key Entities\n\n- **`Order`**: A purchase\n- **User**: has many `Order`\n".toList
    ∃ found order user, ofDocument? document = some found ∧ found.records = [order, user] ∧
      order.name = "`Order`" ∧ user.name = "User" ∧ user.description = "has many `Order`" ∧
      user.relationships = [] ∧
      (found.withCode .unresolvedTarget).map Diagnostic.message =
        ["entity `User`: `has many Order` does not name a known entity"] := by
  intro document
  have hentries : (EntityEntry.section? (Line.scan document)).map (fun lines =>
      (EntityEntry.ofSection lines).records) =
        some [⟨"`Order`", "A purchase", "A purchase".toList, ⟨17, 42⟩⟩,
          ⟨"User", "has many `Order`", "has many `Order`".toList, ⟨43, 71⟩⟩] := by
    decide +kernel
  obtain ⟨lines, hlines, hrecords⟩ := Option.map_eq_some_iff.mp hentries
  have hfound : ofDocument? document = some (ofSection lines) := by
    rw [ofDocument?, hlines]
    rfl
  have hknown : bySize ["`Order`", "User"] = ["`Order`", "User"] := by cbv
  have hentities := records_ofSection lines
  have hwarnings := withCode_ofSection_of_stated (.inl rfl) lines
  rw [hrecords] at hentities hwarnings
  simp only [List.map_cons, List.map_nil, hknown] at hentities hwarnings
  refine ⟨ofSection lines, _, _, hfound, hentities, rfl, rfl, rfl, ?_, ?_⟩
  · decide +kernel
  · rw [hwarnings]
    decide +kernel

end Entity

end DiagramSync
