import Reticulum.Discovery.ConfigReading

/-!
# What a discovered configuration entry can inject

An entry is read back as what was announced exactly when every announced text in it keeps to its
line and reads as itself: the name sanitiser keeps line breaks and number signs, the zone of an
IPv6 address is any text, and so are the network name, the passphrase and a modulation.
-/

namespace Reticulum.Discovery

open Reticulum.Configuration

/-! ## Names -/

/-- A name that starts and ends in letters that a header can. -/
structure NameEnds (name : String) : Prop where
  ne_nil : name.toList ≠ []
  first : ∀ c ∈ name.toList.head?, Plain c
  last : ∀ c ∈ name.toList.getLast?, Plain c

theorem plain_of_endsName {c : Char} (h : endsName c = true) : Plain c := by
  unfold endsName at h
  rw [Bool.or_eq_true, beq_iff_eq] at h
  rcases h with h | rfl
  · exact ⟨isWhitespace_of_isAlphanum h, ne_of_isAlphanum h (by decide),
      ne_of_isAlphanum h (by decide)⟩
  · decide

theorem head?_dropEndWhile {p : Char → Bool} {chars : List Char} {c : Char}
    (h : (dropEndWhile p chars).head? = some c) : chars.head? = some c := by
  obtain ⟨rest, hrest⟩ : dropEndWhile p chars <+: chars := by
    unfold dropEndWhile
    rw [← List.reverse_suffix, List.reverse_reverse]
    exact List.dropWhile_suffix p
  rw [← hrest, List.head?_append, h]
  rfl

theorem nameEnds_sanitizeName {name kept : String} (h : sanitizeName name = some kept)
    (hne : kept ≠ "") : NameEnds kept where
  ne_nil hnil := hne (String.toList_inj.mp hnil)
  first c hc := by
    unfold sanitizeName at h
    split at h
    · cases h
    · obtain rfl := Option.some.inj h
      rw [String.toList_ofList] at hc
      have hnot := List.head?_dropWhile_not (fun c => !c.isAlphanum)
        ([5, 3, 2].foldl (fun chars n => shortenSpaces n 0 chars)
          (name.toList.filter fun c => c.toNat < 128))
      rw [head?_dropEndWhile hc] at hnot
      have halnum : c.isAlphanum = true := by simpa using hnot
      exact plain_of_endsName (by rw [endsName, halnum, Bool.true_or])
  last c hc := plain_of_endsName (getLast?_sanitizeName h c hc)

theorem nameEnds_discovered {type : String} (h : type ∈ discoverableInterfaceTypes) :
    NameEnds s!"Discovered {type}" := by
  have hends : ∀ type ∈ discoverableInterfaceTypes,
      (s!"Discovered {type}").toList ≠ [] ∧
      (s!"Discovered {type}").toList.head?.all (fun c => decide (Plain c)) = true ∧
      (s!"Discovered {type}").toList.getLast?.all (fun c => decide (Plain c)) = true := by decide
  obtain ⟨hne, hfirst, hlast⟩ := hends type h
  exact ⟨hne, fun c hc => of_decide_eq_true ((Option.all_eq_true _ _).mp hfirst c hc),
    fun c hc => of_decide_eq_true ((Option.all_eq_true _ _).mp hlast c hc)⟩

/-! ## What an announce gives -/

/-- What is known of the announced interface and its entry. -/
structure EntryOf (set : Setting) (info : InterfaceInfo) (entry : String) : Prop where
  type : info.interfaceType ∈ discoverableInterfaceTypes
  name : NameEnds info.name
  transportId : Token info.transportId
  entry : entry = entryText set info
  typed : .item "type" (entryType set info.interfaceType) ∈ typedLines set info
  address : ∀ remote ∈ info.reachableOn,
    .item (addressKey set info.interfaceType) remote ∈ typedLines set info
  port : ∀ port ∈ info.port, .item "target_port" (toString port) ∈ typedLines set info

theorem nameEnds_of_readName {value : Value} {name : Option String} {type : String}
    (h : readName value = some name) (htype : type ∈ discoverableInterfaceTypes) :
    NameEnds ((name.filter fun text => !text.isEmpty).getD s!"Discovered {type}") := by
  cases hname : name.filter fun text => !text.isEmpty with
  | none => exact nameEnds_discovered htype
  | some kept =>
      obtain ⟨rfl, hne⟩ := Option.filter_eq_some_iff.mp hname
      have hempty : kept ≠ "" := by
        rintro rfl
        cases hne
      cases value with
      | string text =>
          cases text with
          | none => cases h
          | some text => exact nameEnds_sanitizeName (Option.some.inj h) hempty
      | nil => cases h
      | boolean | integer | f32 | f64 | binary | array | map | ext => cases h

variable {value : Option String} {entry : String}

theorem entryOf_interfaceInfo {set : Setting} {m : Value} {a : Announce} {check : StampCheck}
    {info : InterfaceInfo} (h : interfaceInfo set m a check = .ok (some info))
    (hentry : info.configEntry = some entry) : EntryOf set info entry := by
  unfold interfaceInfo at h
  split at h
  · cases h
  · next value hvalue =>
    obtain ⟨name, hname, h⟩ := Results.bind_eq_ok.mp h
    obtain ⟨transport, -, h⟩ := Results.bind_eq_ok.mp h
    obtain ⟨latitude, -, h⟩ := Results.bind_eq_ok.mp h
    obtain ⟨longitude, -, h⟩ := Results.bind_eq_ok.mp h
    obtain ⟨height, -, h⟩ := Results.bind_eq_ok.mp h
    obtain ⟨transportId, -, h⟩ := Results.bind_eq_ok.mp h
    dsimp only at h
    split at h
    · next hlisted =>
      rw [List.contains_iff_mem] at hlisted
      obtain ⟨reachableOn, -, h⟩ := Results.bind_eq_ok.mp h
      obtain ⟨netname, -, h⟩ := Results.bind_eq_ok.mp h
      obtain ⟨netkey, -, h⟩ := Results.bind_eq_ok.mp h
      obtain ⟨typed, htyped, h⟩ := Results.bind_eq_ok.mp h
      obtain rfl := Option.some.inj (Except.ok.inj h)
      have hread := typed_typedInfo htyped
      obtain ⟨field, hfield⟩ : ∃ field, readName field = some name := by
        obtain ⟨field, -, hread⟩ := Results.bind_eq_ok.mp hname
        refine ⟨field, ?_⟩
        split at hread
        · next found hfound => exact hfound.trans (congrArg some (Except.ok.inj hread))
        · cases hread
      refine {
        type := ?_
        name := ?_
        transportId := ?_
        entry := ?_
        typed := ?_
        address := hread.address rfl
        port := hread.port rfl }
      · exact hread.interfaceType ▸ hlisted
      · exact hread.name ▸ nameEnds_of_readName hfield hlisted
      · exact hread.transportId ▸ token_hexrep transportId
      · rcases hread.entry with hnone | hsome
        · cases hnone.symm.trans hentry
        · exact Option.some.inj (hentry.symm.trans hsome.1)
      · rcases hread.entry with hnone | hsome
        · cases hnone.symm.trans hentry
        · exact hsome.2
    · cases h

/-! ## When an entry is read back -/

/-- Every announced text keeps to its line, and every value has the property. -/
structure EntryTexts (Q : String → Prop) (info : InterfaceInfo) : Prop where
  name : OneLine info.name
  address : ∀ v ∈ info.reachableOn, OneLine v ∧ Q v
  netname : ∀ v ∈ info.ifacNetname, OneLine v ∧ Q v
  netkey : ∀ v ∈ info.ifacNetkey, OneLine v ∧ Q v

/-- Every announced text keeps to its line, and every value reads as itself. -/
abbrev EntryReads (info : InterfaceInfo) : Prop := EntryTexts ReadsSelf info

/-- The modulation that is named in a comment has no line break. -/
def UnbrokenModulation (info : InterfaceInfo) : Prop :=
  info.interfaceType = "KISSInterface" → ∀ m ∈ info.modulation, '\n' ∉ m.toList

/-- The key that a line sets. -/
def EntryLine.key? : EntryLine → Option String
  | item key _ => some key
  | comment _ => none

/-- The configuration says what was announced and nothing besides. -/
structure SaysEntry (set : Setting) (info : InterfaceInfo) (cfg : Config) : Prop where
  sections : ∀ sec, (cfg.getSection sec).isSome = true ↔ sec = "interfaces"
  subsections : ∀ name, cfg.HasSubsection "interfaces" name ↔ name = info.name
  type : cfg.item "interfaces" (some info.name) "type" = some (entryType set info.interfaceType)
  address : ∀ remote ∈ info.reachableOn,
    cfg.item "interfaces" (some info.name) (addressKey set info.interfaceType) = some remote
  port : ∀ port ∈ info.port,
    cfg.item "interfaces" (some info.name) "target_port" = some (toString port)
  netname : ∀ v ∈ info.ifacNetname, v ≠ "" →
    cfg.item "interfaces" (some info.name) "network_name" = some v
  netkey : ∀ v ∈ info.ifacNetkey, v ≠ "" →
    cfg.item "interfaces" (some info.name) "passphrase" = some v
  keys : ∀ key v, cfg.item "interfaces" (some info.name) key = some v →
    key ∈ (entryLines set info).filterMap EntryLine.key?
  discarded : cfg.discarded = []

/-- Below `[interfaces]` the entry says what the announce said. -/
def ReadsBack (set : Setting) (info : InterfaceInfo) (entry : String) : Prop :=
  ∃ cfg, Config.fromStr ("[interfaces]\n" ++ entry) = some cfg ∧ SaysEntry set info cfg

/-! ## The lines of an entry are clean -/

section
variable {set : Setting} {info : InterfaceInfo}

variable {Q : String → Prop}

/-- A value that keeps to its line and has the property. -/
def Good (Q : String → Prop) (v : String) : Prop := OneLine v ∧ Q v

theorem good_getD (hQ : ∀ v, Token v → Q v) (h : ∀ v ∈ value, Good Q v) :
    Good Q (value.getD "") := by
  cases value with
  | none =>
      have hempty : Token "" := fun c hc => absurd hc List.not_mem_nil
      exact ⟨hempty.oneLine, hQ _ hempty⟩
  | some v => exact h v rfl

theorem token_entryType (h : info.interfaceType ∈ discoverableInterfaceTypes) :
    Token (entryType set info.interfaceType) := by
  have htypes : ∀ type ∈ discoverableInterfaceTypes, type.toList.all Char.isAlphanum = true := by
    decide
  have hall : ∀ type ∈ discoverableInterfaceTypes, ∀ c ∈ type.toList, c.isAlphanum = true :=
    fun type hmem => List.all_eq_true.mp (htypes type hmem)
  refine token_of_isAlphanum ?_
  unfold entryType
  split
  · split
    · exact hall _ (by decide)
    · exact hall _ (by decide)
  · exact hall _ h

/-- A word, by looking at its letters. -/
theorem word_of_all {chars : List Char} (hne : chars ≠ [])
    (h : chars.all (fun c => decide (Plain c ∧ c ≠ '#' ∧ c ≠ '=')) = true) : Word chars :=
  ⟨hne, fun c hc => of_decide_eq_true (List.all_eq_true.mp h c hc)⟩

theorem word_addressKey : Word (addressKey set info.interfaceType).toList := by
  unfold addressKey
  split
  · exact word_of_all (by decide) (by decide)
  split <;> exact word_of_all (by decide) (by decide)

/-- A comment that keeps to its line, or a setting of a word to a good value. -/
def EntryLine.Good (Q : String → Prop) : EntryLine → Prop
  | item key value => Word key.toList ∧ Discovery.Good Q value
  | comment text => '\n' ∉ text.toList

theorem EntryLine.Good.clean {line : EntryLine} (h : line.Good Q) : line.Clean := by
  cases line with
  | item key value => exact ⟨h.1, h.2.1⟩
  | comment text => exact h

theorem good_optionalLine {key : String} (hkey : Word key.toList) (hvalue : ∀ v ∈ value, Good Q v) :
    ∀ line ∈ optionalLine key value, line.Good Q := by
  intro line hline
  cases value with
  | none => exact absurd hline List.not_mem_nil
  | some v =>
      unfold optionalLine at hline
      dsimp only at hline
      split at hline
      · exact absurd hline List.not_mem_nil
      · exact List.mem_singleton.mp hline ▸ ⟨hkey, hvalue v rfl⟩

theorem mem_optionalLine {key v : String} (h : v ∈ value) (hne : v ≠ "") :
    .item key v ∈ optionalLine key value := by
  obtain rfl := h
  unfold optionalLine
  dsimp only
  rw [if_neg (by simpa using hne)]
  exact List.mem_cons_self

theorem good_comment {label text : String} (hlabel : '\n' ∉ label.toList)
    (htext : '\n' ∉ text.toList) : (EntryLine.comment (label ++ text)).Good Q := by
  change '\n' ∉ (label ++ text).toList
  rw [String.toList_append, List.mem_append]
  exact fun h => h.elim hlabel htext

theorem good_typedLines (hQ : ∀ v, Token v → Q v)
    (htype : info.interfaceType ∈ discoverableInterfaceTypes) (htransport : Token info.transportId)
    (htexts : EntryTexts Q info) (hunbroken : UnbrokenModulation info) :
    ∀ line ∈ typedLines set info, line.Good Q := by
  have hgood : ∀ {v}, Token v → Good Q v := fun hv => ⟨hv.oneLine, hQ _ hv⟩
  have hempty : Good Q "" := hgood fun c hc => absurd hc List.not_mem_nil
  have hyes : Good Q "yes" := hgood (token_of_isAlphanum (List.all_eq_true.mp (by decide)))
  have hnumber : ∀ value : Option Nat, Good Q (shown (value.map toString)) :=
    fun _ => hgood token_shown
  have hhead : ∀ line ∈ [EntryLine.item "type" (entryType set info.interfaceType),
      .item "enabled" "yes"], line.Good Q :=
    List.forall_mem_cons.mpr ⟨⟨word_of_all (by decide) (by decide), hgood (token_entryType htype)⟩,
      List.forall_mem_singleton.mpr ⟨word_of_all (by decide) (by decide), hyes⟩⟩
  have haddress : (EntryLine.item (addressKey set info.interfaceType)
      (info.reachableOn.getD "")).Good Q := ⟨word_addressKey, good_getD hQ htexts.address⟩
  have hidentity : (EntryLine.item "transport_identity" info.transportId).Good Q :=
    ⟨word_of_all (by decide) (by decide), hgood htransport⟩
  have hport : (EntryLine.item "port" "").Good Q := ⟨word_of_all (by decide) (by decide), hempty⟩
  unfold typedLines
  dsimp only
  split
  · refine List.forall_mem_append.mpr ⟨hhead, List.forall_mem_cons.mpr ⟨haddress, ?_⟩⟩
    exact List.forall_mem_cons.mpr ⟨⟨word_of_all (by decide) (by decide), hgood (token_toString _)⟩,
      List.forall_mem_singleton.mpr hidentity⟩
  · refine List.forall_mem_append.mpr ⟨hhead, List.forall_mem_cons.mpr ⟨haddress, ?_⟩⟩
    exact List.forall_mem_cons.mpr ⟨⟨word_of_all (by decide) (by decide), hgood (token_toString _)⟩,
      List.forall_mem_singleton.mpr hidentity⟩
  · exact List.forall_mem_append.mpr ⟨hhead, List.forall_mem_cons.mpr ⟨haddress,
      List.forall_mem_singleton.mpr hidentity⟩⟩
  · refine List.forall_mem_append.mpr ⟨hhead, List.forall_mem_cons.mpr ⟨hport, ?_⟩⟩
    refine List.forall_mem_cons.mpr ⟨⟨word_of_all (by decide) (by decide), hnumber _⟩, ?_⟩
    refine List.forall_mem_cons.mpr ⟨⟨word_of_all (by decide) (by decide), hnumber _⟩, ?_⟩
    refine List.forall_mem_cons.mpr ⟨⟨word_of_all (by decide) (by decide), hnumber _⟩, ?_⟩
    refine List.forall_mem_cons.mpr ⟨⟨word_of_all (by decide) (by decide), hnumber _⟩, ?_⟩
    exact List.forall_mem_singleton.mpr ⟨word_of_all (by decide) (by decide), hempty⟩
  · exact List.forall_mem_append.mpr ⟨hhead, List.forall_mem_singleton.mpr hport⟩
  · next hkiss =>
    have hmodulation : '\n' ∉ (shown info.modulation).toList := by
      cases hm : info.modulation with
      | none =>
          have hnone : '\n' ∉ "None".toList := by decide
          exact hnone
      | some m => exact hunbroken hkiss m hm
    refine List.forall_mem_append.mpr ⟨hhead, List.forall_mem_cons.mpr ⟨hport, ?_⟩⟩
    refine List.forall_mem_cons.mpr ⟨good_comment (by decide) (hnumber _).1.newline, ?_⟩
    refine List.forall_mem_cons.mpr ⟨good_comment (by decide) (hnumber _).1.newline, ?_⟩
    exact List.forall_mem_cons.mpr ⟨good_comment (by decide) hmodulation,
      List.forall_mem_singleton.mpr hidentity⟩
  · exact fun line hline => absurd hline List.not_mem_nil

theorem good_entryLines (hQ : ∀ v, Token v → Q v)
    (htype : info.interfaceType ∈ discoverableInterfaceTypes) (htransport : Token info.transportId)
    (htexts : EntryTexts Q info) (hunbroken : UnbrokenModulation info) :
    ∀ line ∈ entryLines set info, line.Good Q :=
  List.forall_mem_append.mpr ⟨good_typedLines hQ htype htransport htexts hunbroken,
    List.forall_mem_append.mpr
      ⟨good_optionalLine (word_of_all (by decide) (by decide)) htexts.netname,
        good_optionalLine (word_of_all (by decide) (by decide)) htexts.netkey⟩⟩

/-! ## No key is set twice -/

theorem mem_keys {key value : String} {body : List EntryLine} (h : .item key value ∈ body) :
    key ∈ body.filterMap EntryLine.key? :=
  List.mem_filterMap.mpr ⟨_, h, rfl⟩

theorem distinct_of_nodup {body : List EntryLine} (h : (body.filterMap EntryLine.key?).Nodup) :
    Distinct body := by
  intro key value value' hmem hmem'
  induction body with
  | nil => exact absurd hmem List.not_mem_nil
  | cons line body ih =>
      cases line with
      | comment text =>
          exact ih h (List.mem_of_ne_of_mem EntryLine.noConfusion hmem)
            (List.mem_of_ne_of_mem EntryLine.noConfusion hmem')
      | item k v =>
          obtain ⟨hnot, hrest⟩ : k ∉ body.filterMap EntryLine.key? ∧
              (body.filterMap EntryLine.key?).Nodup := List.nodup_cons.mp h
          rcases List.mem_cons.mp hmem with heq | hmem <;>
            rcases List.mem_cons.mp hmem' with heq' | hmem'
          · cases heq
            cases heq'
            rfl
          · injection heq with hk
            exact absurd (hk ▸ mem_keys hmem') hnot
          · injection heq' with hk
            exact absurd (hk ▸ mem_keys hmem) hnot
          · exact ih hrest hmem hmem'

theorem keys_optionalLine (key : String) (value : Option String) :
    List.Sublist ((optionalLine key value).filterMap EntryLine.key?) [key] := by
  cases value with
  | none => exact List.nil_sublist _
  | some v =>
      unfold optionalLine
      dsimp only
      split
      · exact List.nil_sublist _
      · exact List.Sublist.refl _

theorem nodup_keys : ((entryLines set info).filterMap EntryLine.key?).Nodup := by
  have haddress : addressKey set info.interfaceType ∈ ["peers", "remote", "target_host"] := by
    unfold addressKey
    split
    · decide
    split <;> decide
  have htyped : ((typedLines set info).filterMap EntryLine.key? ++
      ["network_name", "passphrase"]).Nodup := by
    revert haddress
    generalize haddr : addressKey set info.interfaceType = addr
    intro haddress
    unfold typedLines
    dsimp only
    rw [haddr]
    simp only [List.mem_cons, List.not_mem_nil, or_false] at haddress
    split <;> rcases haddress with rfl | rfl | rfl <;>
      (simp only [List.cons_append, List.nil_append, List.filterMap_cons, List.filterMap_nil,
        EntryLine.key?]
       decide)
  unfold entryLines
  rw [List.filterMap_append, List.filterMap_append]
  refine htyped.sublist (List.Sublist.append (List.Sublist.refl _) ?_)
  exact List.Sublist.append (keys_optionalLine _ _) (keys_optionalLine _ _)

/-! ## What is read keeps to its line -/

theorem trimStartPairs_subset (sign : Char) (chars : List Char) :
    trimStartPairs sign chars ⊆ chars := by
  fun_induction trimStartPairs sign chars with
  | case1 a b rest _ ih => exact fun c hc => List.mem_cons_of_mem _ (List.mem_cons_of_mem _ (ih hc))
  | case2 => exact List.Subset.refl _
  | case3 => exact List.Subset.refl _

theorem subsectionName_subset (line : List Char) : (subsectionName line).toList ⊆ line := by
  intro c hc
  unfold subsectionName at hc
  rw [String.toList_ofList] at hc
  have hend := trim_subset hc
  unfold trimEndPairs at hend
  exact trimStartPairs_subset _ _
    (List.mem_reverse.mp (trimStartPairs_subset _ _ (List.mem_reverse.mp hend)))

theorem oneLine_of_subset {v : String} {text : String} {rawLine : List Char}
    (hmem : rawLine ∈ text.toList.splitOn '\n') (h : v.toList ⊆ stripComment rawLine) :
    OneLine v where
  newline hnew := newline_not_mem_splitOn hmem (stripComment_subset rawLine (h hnew))
  comment hsign := comment_not_mem_stripComment rawLine (h hsign)

/-- Names of subsections that are read keep to their line. -/
theorem oneLine_of_subsection {text sec name : String} {cfg : Config}
    (hread : Config.fromStr text = some cfg) (h : cfg.HasSubsection sec name) : OneLine name := by
  obtain ⟨i, rawLine, hraw, hclass, -⟩ := ((meaning_of_parts hread).subsections sec name).mp h
  refine oneLine_of_subset (List.mem_of_getElem? hraw) fun c hc => ?_
  rw [← classify_subsection hclass] at hc
  exact content_subset rawLine (subsectionName_subset _ hc)

/-- Values that are read keep to their line. -/
theorem oneLine_of_item {text sec key v : String} {sub : Option String} {cfg : Config}
    (hread : Config.fromStr text = some cfg) (h : cfg.item sec sub key = some v) : OneLine v := by
  obtain ⟨i, hset, -⟩ := ((meaning_of_parts hread).items sec sub key v).mp h
  obtain ⟨hcomment, rawLine, hmem, hsub⟩ := subset_of_sets hset
  exact ⟨fun hnew => newline_not_mem_splitOn hmem (hsub hnew), hcomment⟩

/-- The announced texts of an entry that is read back. -/
theorem oneLine_of_readsBack (h : ReadsBack set info entry) :
    OneLine info.name ∧ (∀ v ∈ info.reachableOn, OneLine v) ∧
      (∀ v ∈ info.ifacNetname, OneLine v) ∧ ∀ v ∈ info.ifacNetkey, OneLine v := by
  obtain ⟨cfg, hread, hcfg⟩ := h
  have hempty : OneLine "" := ⟨by decide, by decide⟩
  refine ⟨oneLine_of_subsection hread ((hcfg.subsections _).mpr rfl),
    fun v hv => oneLine_of_item hread (hcfg.address v hv), fun v hv => ?_, fun v hv => ?_⟩
  · by_cases hne : v = ""
    · exact hne ▸ hempty
    · exact oneLine_of_item hread (hcfg.netname v hv hne)
  · by_cases hne : v = ""
    · exact hne ▸ hempty
    · exact oneLine_of_item hread (hcfg.netkey v hv hne)

/-! ## Reading an entry back -/

theorem text_eq (set : Setting) (info : InterfaceInfo) :
    "[interfaces]\n" ++ entryText set info = joined (entryParts info.name (entryLines set info)) := by
  have hbreak : "[interfaces]\n" = "[interfaces]" ++ "\n" := by decide
  unfold entryText entryParts joined
  rw [hbreak, String.intercalate_cons_cons]

theorem newline_not_mem_render {line : EntryLine} (h : line.Clean) : '\n' ∉ line.render.toList := by
  cases line with
  | item key value =>
      rw [toList_render_item]
      intro hmem
      rcases List.mem_append.mp hmem with hmem | hmem
      · rcases List.mem_append.mp hmem with hmem | hmem
        · exact absurd hmem (by decide)
        · exact absurd (h.1.plain _ hmem).1.1 (by decide)
      · simp only [List.mem_cons] at hmem
        rcases hmem with hmem | hmem | hmem | hmem
        · cases hmem
        · cases hmem
        · cases hmem
        · exact h.2.newline hmem
  | comment text =>
      have hmark : '\n' ∉ "  # ".toList := by decide
      unfold EntryLine.render
      rw [String.toList_append, List.mem_append]
      exact fun hmem => hmem.elim hmark h

theorem nameReads (hname : NameEnds info.name) (hline : OneLine info.name) : NameReads info.name :=
  ⟨hname.ne_nil, hline, hname.first, hname.last⟩

/-- Where the texts keep to their line, what is read is what the lines set. -/
theorem meaning_of_read {cfg : Config} (hname : NameReads info.name)
    (hbody : ∀ line ∈ entryLines set info, line.Clean)
    (hread : Config.fromStr ("[interfaces]\n" ++ entryText set info) = some cfg) :
    Meaning ((entryParts info.name (entryLines set info)).map String.toList) cfg := by
  have h := meaning_of_parts hread
  rwa [text_eq, splitOn_entryParts hname.oneLine.newline
    fun line hline => newline_not_mem_render (hbody line hline)] at h

theorem isSome_read (hname : NameReads info.name)
    (hbody : ∀ line ∈ entryLines set info, line.Clean) :
    (Config.fromStr ("[interfaces]\n" ++ entryText set info)).isSome = true ↔
      ∀ key value, .item key value ∈ entryLines set info → unquote value.toList ≠ none := by
  rw [isSome_fromStr_parts, text_eq, splitOn_entryParts hname.oneLine.newline
    fun line hline => newline_not_mem_render (hbody line hline)]
  exact not_loneQuote_iff hname hbody

end

/-- An entry of good lines is read back. -/
theorem readsBack_of_entryReads {set : Setting} {info : InterfaceInfo} (h : EntryOf set info entry)
    (hreads : EntryReads info) (hunbroken : UnbrokenModulation info) :
    ReadsBack set info entry := by
  have hgood : ∀ line ∈ entryLines set info, line.Good ReadsSelf :=
    good_entryLines (fun _ hv => hv.readsSelf) h.type h.transportId hreads hunbroken
  have hbody : ∀ line ∈ entryLines set info, line.Clean := fun line hline => (hgood line hline).clean
  have hname := nameReads h.name hreads.name
  have hsome := (isSome_read hname hbody).mpr fun key value hitem hnone => by
    have hself : unquote value.toList = some value.toList := (hgood _ hitem).2.2
    cases hnone.symm.trans hself
  obtain ⟨cfg, hread⟩ := Option.isSome_iff_exists.mp hsome
  have hmeaning := meaning_of_read hname hbody hread
  have hdistinct : Distinct (entryLines set info) := distinct_of_nodup nodup_keys
  have hset : ∀ {key value}, .item key value ∈ entryLines set info →
      cfg.item "interfaces" (some info.name) key = some value := by
    intro key value hitem
    exact (item_iff hname hbody hdistinct hmeaning).mpr
      ⟨value, value.toList, hitem, (hgood _ hitem).2.2, String.ofList_toList.symm⟩
  have htyped : ∀ {line}, line ∈ typedLines set info → line ∈ entryLines set info :=
    fun hline => List.mem_append_left _ hline
  refine ⟨cfg, h.entry ▸ hread, ?_⟩
  exact {
    sections := sections_iff hname hbody hmeaning
    subsections := subsections_iff hname hbody hmeaning
    type := hset (htyped h.typed)
    address := fun remote hremote => hset (htyped (h.address remote hremote))
    port := fun port hport => hset (htyped (h.port port hport))
    netname := fun v hv hne =>
      hset (List.mem_append_right _ (List.mem_append_left _ (mem_optionalLine hv hne)))
    netkey := fun v hv hne =>
      hset (List.mem_append_right _ (List.mem_append_right _ (mem_optionalLine hv hne)))
    keys := fun key v hitem => by
      obtain ⟨value, inner, hmem, -⟩ := (item_iff hname hbody hdistinct hmeaning).mp hitem
      exact mem_keys hmem
    discarded := discarded_nil hname hbody hmeaning }

/-- An entry that is read back has texts that read as themselves. -/
theorem entryReads_of_readsBack {set : Setting} {info : InterfaceInfo} (h : EntryOf set info entry)
    (hback : ReadsBack set info entry) (hunbroken : UnbrokenModulation info) : EntryReads info := by
  obtain ⟨hnameLine, haddress, hnetname, hnetkey⟩ := oneLine_of_readsBack hback
  have htexts : EntryTexts (fun _ => True) info :=
    ⟨hnameLine, fun v hv => ⟨haddress v hv, True.intro⟩, fun v hv => ⟨hnetname v hv, True.intro⟩,
      fun v hv => ⟨hnetkey v hv, True.intro⟩⟩
  have hbody : ∀ line ∈ entryLines set info, line.Clean := fun line hline =>
    (good_entryLines (fun _ _ => True.intro) h.type h.transportId htexts hunbroken line hline).clean
  have hname := nameReads h.name hnameLine
  obtain ⟨cfg, hread, hcfg⟩ := hback
  rw [h.entry] at hread
  have hmeaning := meaning_of_read hname hbody hread
  have hdistinct : Distinct (entryLines set info) := distinct_of_nodup nodup_keys
  have hself : ∀ {key v}, .item key v ∈ entryLines set info →
      cfg.item "interfaces" (some info.name) key = some v → ReadsSelf v := by
    intro key v hmem hitem
    obtain ⟨value, inner, hmem', hinner, rfl⟩ :=
      (item_iff hname hbody hdistinct hmeaning).mp hitem
    obtain rfl := hdistinct key _ value hmem hmem'
    unfold ReadsSelf
    rw [hinner, String.toList_ofList]
  have hempty : ReadsSelf "" := by decide
  refine ⟨hnameLine, fun v hv => ⟨haddress v hv, ?_⟩, fun v hv => ⟨hnetname v hv, ?_⟩,
    fun v hv => ⟨hnetkey v hv, ?_⟩⟩
  · exact hself (List.mem_append_left _ (h.address v hv)) (hcfg.address v hv)
  · by_cases hne : v = ""
    · exact hne ▸ hempty
    · exact hself (List.mem_append_right _ (List.mem_append_left _ (mem_optionalLine hv hne)))
        (hcfg.netname v hv hne)
  · by_cases hne : v = ""
    · exact hne ▸ hempty
    · exact hself (List.mem_append_right _ (List.mem_append_right _ (mem_optionalLine hv hne)))
        (hcfg.netkey v hv hne)

/-- An announced interface whose modulation does not break its line has an entry that is read back
if and only if its texts keep to their lines and read as themselves. -/
theorem configEntry_readsBack (set : Setting) (m : Value) (a : Announce) (check : StampCheck)
    (info : InterfaceInfo) (entry : String)
    (h : interfaceInfo set m a check = .ok (some info)) (hentry : info.configEntry = some entry)
    (hunbroken : UnbrokenModulation info) : ReadsBack set info entry ↔ EntryReads info :=
  ⟨fun hback => entryReads_of_readsBack (entryOf_interfaceInfo h hentry) hback hunbroken,
    fun hreads => readsBack_of_entryReads (entryOf_interfaceInfo h hentry) hreads hunbroken⟩

/-! ## A sample -/

def entryLibraries : Libraries where
  fullHash bytes := bytes
  hkdf salt _ := salt
  writeUint _ := []
  encode _ := none
  decode _ := .error ""
  showF64 _ := ""
  widen bits := UInt64.ofNat bits.toNat
  search _ _ := none

def entrySetting : Setting where
  lib := entryLibraries
  requiredValue := 0
  discoverySources := []
  networkIdentity := none
  backboneSupport := true

def entryAnnounce : Announce where
  networkId := []
  appData := []
  hops := 1
  now := 0

/-- A backbone interface with a network name. -/
def entryDictionary (netname : String) : Value :=
  .map [(.integer 0, .string (some "BackboneInterface")), (.integer 1, .boolean true),
    (.integer 255, .string (some "N")), (.integer 254, .binary (List.replicate 16 0)),
    (.integer 3, .nil), (.integer 4, .nil), (.integer 5, .nil),
    (.integer 2, .string (some "a.example")), (.integer 6, .integer 4242),
    (.integer 7, .string (some netname))]

/-- What the handler makes of a backbone interface with this network name. -/
def entryInfo (netname : String) : Except String (Option InterfaceInfo) :=
  interfaceInfo entrySetting (entryDictionary netname) entryAnnounce ⟨true, 14, [], []⟩

/-- The network name of a backbone interface and its configuration entry. -/
theorem entryInfo_eq (netname : String) : ∃ info, entryInfo netname = .ok (some info) ∧
    info.interfaceType = "BackboneInterface" ∧ info.name = "N" ∧
    info.reachableOn = some "a.example" ∧ info.ifacNetname = some netname ∧
    info.ifacNetkey = none ∧ info.configEntry.isSome = true := by
  have hname : ((sanitizeName "N").filter fun text => !text.isEmpty).getD
      (toString "Discovered " ++ toString "BackboneInterface") = "N" := by decide
  exact ⟨_, rfl, rfl, hname, rfl, rfl, rfl, rfl⟩

theorem configEntry_readsBack_sample : ∃ info entry, entryInfo "a net" = .ok (some info) ∧
    info.configEntry = some entry ∧ ReadsBack entrySetting info entry := by
  obtain ⟨info, hinfo, htype, hname, hremote, hnetname, hnetkey, hsome⟩ := entryInfo_eq "a net"
  obtain ⟨entry, hentry⟩ := Option.isSome_iff_exists.mp hsome
  have hunbroken : UnbrokenModulation info := by
    intro hkiss
    rw [htype] at hkiss
    exact absurd hkiss (by decide)
  have hreads : EntryReads info := by
    refine ⟨hname ▸ ⟨by decide, by decide⟩, ?_, ?_, ?_⟩
    · rw [hremote]
      rintro v ⟨⟩
      exact ⟨⟨by decide, by decide⟩, by decide⟩
    · rw [hnetname]
      rintro v ⟨⟩
      exact ⟨⟨by decide, by decide⟩, by decide⟩
    · rw [hnetkey]
      rintro v ⟨⟩
  exact ⟨info, entry, hinfo, hentry,
    (configEntry_readsBack _ _ _ _ info entry hinfo hentry hunbroken).mpr hreads⟩

/-- A network name with a line break turns the interface off. -/
theorem configEntry_readsBack_false :
    ¬ ∀ (set : Setting) (m : Value) (a : Announce) (check : StampCheck) (info : InterfaceInfo)
      (entry : String), interfaceInfo set m a check = .ok (some info) →
        info.configEntry = some entry → ReadsBack set info entry := by
  intro hall
  obtain ⟨info, hinfo, -, -, -, hnetname, -, hsome⟩ := entryInfo_eq "x\n  enabled = no"
  obtain ⟨entry, hentry⟩ := Option.isSome_iff_exists.mp hsome
  have hback := hall _ _ _ _ info entry hinfo hentry
  have hline := (oneLine_of_readsBack hback).2.2.1 _ hnetname
  exact hline.newline (by decide)

-- What the entry sets then.
example : (Config.fromStr
    "[interfaces]\n[[N]]\n  enabled = yes\n  network_name = x\n  enabled = no").map (fun cfg =>
      (cfg.item "interfaces" (some "N") "enabled", cfg.item "interfaces" (some "N") "network_name")) =
    some (some "no", some "x") := by decide

end Reticulum.Discovery
