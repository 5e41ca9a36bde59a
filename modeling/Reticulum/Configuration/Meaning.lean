import Reticulum.Configuration.Texts

/-!
# What a configuration file says

Each line is of one kind, and the headers before it say which section and subsection are open.
`Config::from_str` gives the configuration in which every setting has the value that was set last,
with the sections and subsections that were opened and the lines that had none.
-/

namespace Reticulum.Configuration

open Discovery

/-! ## Kinds of lines -/

/-- What a line is, read alone. -/
inductive Line
  | blank
  | subsection (name : String)
  | header (name : String)
  | setting (key : String) (value : List Char)
  | other

/-- A line without its comment and the white space around it. -/
def content (rawLine : List Char) : List Char := trim (stripComment rawLine)

def classify (rawLine : List Char) : Line :=
  let line := content rawLine
  if line = [] then .blank
  else if ['[', '['] <+: line ∧ [']', ']'] <:+ line then .subsection (subsectionName line)
  else if ['['] <+: line ∧ [']'] <:+ line then .header (sectionName line)
  else
    match splitKv line with
    | some (key, value) => .setting (String.ofList key) value
    | none => .other

/-- The section and the subsection that are open. -/
abbrev Place := Option (String × Option String)

/-- Where the items after a line belong. -/
def enter (place : Place) : Line → Place
  | .header name => some (name, none)
  | .subsection name => place.map fun s => (s.1, some name)
  | _ => place

/-- Where the items after these lines belong. -/
def placeAfter (ls : List (List Char)) : Place :=
  ls.foldl (fun place rawLine => enter place (classify rawLine)) none

theorem placeAfter_concat (ls : List (List Char)) (rawLine : List Char) :
    placeAfter (ls ++ [rawLine]) = enter (placeAfter ls) (classify rawLine) := by
  simp [placeAfter]

/-! ## What is said where -/

/-- The line at `i` and those before it have the property. -/
def At (P : List (List Char) → List Char → Prop) (ls : List (List Char)) (i : Nat) : Prop :=
  ∃ rawLine, ls[i]? = some rawLine ∧ P (ls.take i) rawLine

variable {f : ConfigSection → ConfigSection} {P : List (List Char) → List Char → Prop}

theorem at_concat {ls : List (List Char)} {rawLine : List Char} {i : Nat} :
    At P (ls ++ [rawLine]) i ↔ At P ls i ∨ (i = ls.length ∧ P ls rawLine) := by
  unfold At
  rcases Nat.lt_trichotomy i ls.length with hlt | heq | hgt
  · rw [List.getElem?_append_left hlt, List.take_append_of_le_length (Nat.le_of_lt hlt)]
    exact ⟨Or.inl, fun h => h.resolve_right fun hend => absurd hend.1 (Nat.ne_of_lt hlt)⟩
  · subst heq
    rw [List.getElem?_concat_length, List.take_left]
    constructor
    · rintro ⟨l, hl, h⟩
      exact Or.inr ⟨rfl, Option.some.inj hl ▸ h⟩
    · rintro (⟨l, hl, -⟩ | ⟨-, h⟩)
      · rw [List.getElem?_eq_none (Nat.le_refl _)] at hl
        cases hl
      · exact ⟨rawLine, rfl, h⟩
  · have hnone : (ls ++ [rawLine])[i]? = none := List.getElem?_eq_none (by
      rw [List.length_append, List.length_singleton]
      exact hgt)
    rw [hnone, List.getElem?_eq_none (Nat.le_of_lt hgt)]
    constructor
    · rintro ⟨l, hl, -⟩
      cases hl
    · rintro (⟨l, hl, -⟩ | ⟨heq, -⟩)
      · cases hl
      · exact absurd heq (Nat.ne_of_gt hgt)

theorem lt_length_of_at {ls : List (List Char)} {i : Nat} (h : At P ls i) : i < ls.length := by
  obtain ⟨rawLine, hl, -⟩ := h
  exact (List.getElem?_eq_some_iff.mp hl).1

/-- A setting of the key in this section and subsection. -/
def Sets (sec : String) (sub : Option String) (key value : String) (before : List (List Char))
    (rawLine : List Char) : Prop :=
  ∃ chars inner, classify rawLine = .setting key chars ∧ unquote chars = some inner ∧
    value = String.ofList inner ∧ placeAfter before = some (sec, sub)

/-- The value that is set last. -/
def LastSet (ls : List (List Char)) (sec : String) (sub : Option String) (key value : String) :
    Prop :=
  ∃ i, At (Sets sec sub key value) ls i ∧
    ∀ j value', i < j → ¬ At (Sets sec sub key value') ls j

def OpensSection (sec : String) (_ : List (List Char)) (rawLine : List Char) : Prop :=
  classify rawLine = .header sec

def OpensSubsection (sec name : String) (before : List (List Char)) (rawLine : List Char) : Prop :=
  classify rawLine = .subsection name ∧ ∃ sub, placeAfter before = some (sec, sub)

/-- A line that carries a setting or opens a subsection where no section is open. -/
def Orphan (text : String) (before : List (List Char)) (rawLine : List Char) : Prop :=
  placeAfter before = none ∧ text = String.ofList (content rawLine) ∧
    ((∃ name, classify rawLine = .subsection name) ∨
      ∃ key value, classify rawLine = .setting key value)

namespace Config

/-- The value of a key of a section or of its subsection. -/
def item (cfg : Config) (sec : String) (sub : Option String) (key : String) : Option String :=
  let s := (cfg.getSection sec).getD {}
  match sub with
  | some name => ((s.getSection name).getD {}).get key
  | none => s.get key

/-- The section has the subsection. -/
def HasSubsection (cfg : Config) (sec name : String) : Prop :=
  (((cfg.getSection sec).getD {}).getSection name).isSome = true

end Config

/-- The configuration says what the lines say. -/
structure Meaning (ls : List (List Char)) (cfg : Config) : Prop where
  sections : ∀ sec, (cfg.getSection sec).isSome = true ↔ ∃ i, At (OpensSection sec) ls i
  subsections : ∀ sec name, cfg.HasSubsection sec name ↔ ∃ i, At (OpensSubsection sec name) ls i
  items : ∀ sec sub key value, cfg.item sec sub key = some value ↔ LastSet ls sec sub key value
  discarded : ∀ n text, (n, text) ∈ cfg.discarded ↔ ∃ i, At (Orphan text) ls i ∧ n = i + 1

/-! ## Reading line by line -/

theorem unquote_trim (chars : List Char) : unquote (trim chars) = unquote chars := by
  unfold unquote
  rw [trim_trim]

theorem readLine_eq (r : Reader) (index : Nat) (rawLine : List Char) :
    r.readLine index rawLine =
      match classify rawLine with
      | .blank | .other => some r
      | .subsection _ => some (r.openSubsection index (content rawLine))
      | .header _ => some (r.openSection (content rawLine))
      | .setting key value =>
          (unquote value).map fun inner =>
            r.setItem index (content rawLine) key (String.ofList inner) := by
  unfold Reader.readLine classify
  dsimp only
  rw [← content.eq_1 rawLine]
  split
  · rfl
  split
  · rfl
  split
  · rfl
  cases splitKv (content rawLine) with
  | none => rfl
  | some kv =>
      obtain ⟨key, value⟩ := kv
      dsimp only
      rw [unquote_trim]
      cases unquote value <;> rfl

/-- What is read depends on the line without its comment and the white space around it. -/
theorem readLine_congr (r : Reader) (index : Nat) {line line' : List Char}
    (h : content line = content line') : r.readLine index line = r.readLine index line' := by
  unfold Reader.readLine
  dsimp only
  rw [← content.eq_1 line, ← content.eq_1 line', h]

/-- Reading the lines is reading the parts between line feeds. -/
theorem readLines_endLines (parts : List (List Char)) (index : Nat) (r : Reader) :
    readLines index (endLines parts) r = readLines index parts r := by
  induction parts generalizing index r with
  | nil => rfl
  | cons part parts ih =>
      cases parts with
      | nil =>
          unfold endLines
          split
          · next hnil =>
            subst hnil
            rfl
          · rfl
      | cons next rest =>
          change ((r.readLine index (stripCr part)).bind fun m =>
            readLines (index + 1) (endLines (next :: rest)) m) = _
          rw [readLine_congr r index (trim_stripComment_stripCr part)]
          exact Option.bind_congr fun m _ => ih (index + 1) m

theorem classify_subsection {rawLine : List Char} {name : String}
    (h : classify rawLine = .subsection name) : subsectionName (content rawLine) = name := by
  unfold classify at h
  dsimp only at h
  split at h
  · cases h
  split at h
  · exact Line.subsection.inj h
  split at h
  · cases h
  split at h <;> cases h

theorem classify_header {rawLine : List Char} {name : String}
    (h : classify rawLine = .header name) : sectionName (content rawLine) = name := by
  unfold classify at h
  dsimp only at h
  split at h
  · cases h
  split at h
  · cases h
  split at h
  · exact Line.header.inj h
  split at h <;> cases h

/-! ## Sections that change -/

theorem get_alter {m : List (String × ConfigSection)} {name x : String} :
    (Assoc.get (alter m name f) x).getD {} =
      if x = name then f ((Assoc.get m name).getD {}) else (Assoc.get m x).getD {} := by
  unfold alter
  split
  · next heq =>
    subst heq
    rw [Assoc.get_put_self]
    rfl
  · next hne => rw [Assoc.get_put_of_ne hne]

theorem isSome_get_alter {m : List (String × ConfigSection)} {name x : String} :
    (Assoc.get (alter m name f) x).isSome = true ↔ x = name ∨ (Assoc.get m x).isSome = true := by
  unfold alter
  by_cases heq : x = name
  · subst heq
    rw [Assoc.get_put_self]
    exact ⟨fun _ => Or.inl rfl, fun _ => rfl⟩
  · rw [Assoc.get_put_of_ne heq]
    exact ⟨Or.inr, fun h => h.resolve_left heq⟩

/-- The item of a section that is changed. -/
def sectionItem (s : ConfigSection) (sub : Option String) (key : String) : Option String :=
  match sub with
  | some name => ((s.getSection name).getD {}).get key
  | none => s.get key

theorem Config.item_eq (cfg : Config) (sec : String) (sub : Option String) (key : String) :
    cfg.item sec sub key = sectionItem ((cfg.getSection sec).getD {}) sub key := by
  cases sub <;> rfl

/-- A section in which the item of itself or of its subsection is set. -/
def setIn (sub : Option String) (key value : String) (s : ConfigSection) : ConfigSection :=
  match sub with
  | some name => { s with subsections := alter s.subsections name fun t => t.insertItem key value }
  | none => s.insertItem key value

theorem get_insertItem (s : ConfigSection) (key value k : String) :
    (s.insertItem key value).get k = if k = key then some value else s.get k := by
  unfold ConfigSection.insertItem ConfigSection.get
  split
  · next heq =>
    subst heq
    exact Assoc.get_put_self
  · next hne => exact Assoc.get_put_of_ne hne

/-- Only the one item changes. -/
theorem sectionItem_setIn (sub : Option String) (key value : String) (s : ConfigSection)
    (t : Option String) (k : String) :
    sectionItem (setIn sub key value s) t k =
      if t = sub ∧ k = key then some value else sectionItem s t k := by
  cases sub with
  | none =>
      cases t with
      | none =>
          simp only [true_and]
          exact get_insertItem s key value k
      | some t => rw [if_neg (fun h => by cases h.1)]; rfl
  | some name =>
      cases t with
      | none => rw [if_neg (fun h => by cases h.1)]; rfl
      | some t =>
          unfold setIn sectionItem ConfigSection.getSection
          dsimp only
          rw [get_alter]
          by_cases hname : t = name
          · subst hname
            rw [if_pos rfl, get_insertItem]
            simp
          · rw [if_neg hname, if_neg fun h => hname (Option.some.inj h.1)]

theorem isSome_getSection_setIn {sub : Option String} {key value : String} {s : ConfigSection}
    {t : String} : ((setIn sub key value s).getSection t).isSome = true ↔
      sub = some t ∨ (s.getSection t).isSome = true := by
  cases sub with
  | none => exact (or_iff_right (by simp)).symm
  | some name =>
      have hname : some name = some t ↔ t = name := Option.some_inj.trans eq_comm
      rw [hname]
      have hget : (Assoc.get (alter s.subsections name fun t => t.insertItem key value) t).isSome =
          true ↔ t = name ∨ (Assoc.get s.subsections t).isSome = true := isSome_get_alter
      exact hget

namespace Reader

variable {r : Reader} {name sec key value : String} {sub : Option String} {index : Nat}
  {line : List Char}

theorem getSection_alterSection {x : String} :
    ((r.alterSection name f).cfg.getSection x).getD {} =
      if x = name then f ((r.cfg.getSection name).getD {}) else (r.cfg.getSection x).getD {} :=
  get_alter

theorem isSome_alterSection {x : String} :
    ((r.alterSection name f).cfg.getSection x).isSome = true ↔
      x = name ∨ (r.cfg.getSection x).isSome = true :=
  isSome_get_alter

theorem setItem_eq (hcur : r.currentSection = some sec) :
    r.setItem index line key value = r.alterSection sec (setIn r.currentSubsection key value) := by
  unfold setItem
  rw [hcur]
  rfl

/-- A change of a section that keeps its items keeps all. -/
theorem item_alterSection (hf : ∀ s sub key, sectionItem (f s) sub key = sectionItem s sub key) :
    (r.alterSection name f).cfg.item sec sub key = r.cfg.item sec sub key := by
  rw [Config.item_eq, Config.item_eq, getSection_alterSection]
  split
  · next heq => rw [hf, heq]
  · rfl

end Reader

/-! ## One more line -/

section
variable {ls : List (List Char)} {rawLine : List Char} {sec key value v : String}
  {sub : Option String}

theorem exists_at_concat : (∃ i, At P (ls ++ [rawLine]) i) ↔ (∃ i, At P ls i) ∨ P ls rawLine := by
  simp only [at_concat, exists_or, exists_eq_left]

theorem sets_unique (h : Sets sec sub key value ls rawLine) (h' : Sets sec sub key v ls rawLine) :
    value = v := by
  obtain ⟨chars, inner, hclass, hinner, rfl, -⟩ := h
  obtain ⟨chars', inner', hclass', hinner', rfl, -⟩ := h'
  obtain ⟨-, rfl⟩ := Line.setting.inj (hclass.symm.trans hclass')
  rw [Option.some.inj (hinner.symm.trans hinner')]

theorem lastSet_concat_of_sets (h : Sets sec sub key v ls rawLine) :
    LastSet (ls ++ [rawLine]) sec sub key value ↔ v = value := by
  constructor
  · rintro ⟨i, hset, hlast⟩
    rcases at_concat.mp hset with hbefore | ⟨-, hnow⟩
    · exact absurd (at_concat.mpr (Or.inr ⟨rfl, h⟩)) (hlast _ v (lt_length_of_at hbefore))
    · exact sets_unique h hnow
  · rintro rfl
    refine ⟨ls.length, at_concat.mpr (Or.inr ⟨rfl, h⟩), fun j value' hj hset => ?_⟩
    have hlt := lt_length_of_at hset
    rw [List.length_append, List.length_singleton] at hlt
    omega

theorem lastSet_concat_of_not (h : ∀ v, ¬ Sets sec sub key v ls rawLine) :
    LastSet (ls ++ [rawLine]) sec sub key value ↔ LastSet ls sec sub key value := by
  have hsame : ∀ v i, At (Sets sec sub key v) (ls ++ [rawLine]) i ↔ At (Sets sec sub key v) ls i :=
    fun v i => at_concat.trans ⟨fun hat => hat.resolve_right fun hnow => h v hnow.2, Or.inl⟩
  unfold LastSet
  simp only [hsame]

/-- The section that is open was opened. -/
theorem opened_of_placeAfter (h : placeAfter ls = some (sec, sub)) :
    ∃ i, At (OpensSection sec) ls i := by
  induction ls using List.reverseRecOn generalizing sub with
  | nil => cases h
  | append_singleton ls rawLine ih =>
      rw [placeAfter_concat] at h
      rw [exists_at_concat]
      cases hclass : classify rawLine with
      | header name =>
          rw [hclass] at h
          obtain ⟨rfl, -⟩ := Prod.mk.inj (Option.some.inj h)
          exact Or.inr hclass
      | subsection name =>
          rw [hclass] at h
          obtain ⟨⟨s, t⟩, hplace, heq⟩ := Option.map_eq_some_iff.mp h
          obtain ⟨rfl, -⟩ := Prod.mk.inj heq
          exact Or.inl (ih hplace)
      | blank | setting | other =>
          rw [hclass] at h
          exact Or.inl (ih h)

theorem opened_subsection_of_placeAfter {name : String}
    (h : placeAfter ls = some (sec, some name)) : ∃ i, At (OpensSubsection sec name) ls i := by
  induction ls using List.reverseRecOn with
  | nil => cases h
  | append_singleton ls rawLine ih =>
      rw [placeAfter_concat] at h
      rw [exists_at_concat]
      cases hclass : classify rawLine with
      | header name =>
          rw [hclass] at h
          cases h
      | subsection name =>
          rw [hclass] at h
          obtain ⟨⟨s, t⟩, hplace, heq⟩ := Option.map_eq_some_iff.mp h
          obtain ⟨rfl, hname⟩ := Prod.mk.inj heq
          obtain rfl := Option.some.inj hname
          exact Or.inr ⟨hclass, t, hplace⟩
      | blank | setting | other =>
          rw [hclass] at h
          exact Or.inl (ih h)

end

/-- One more line says what it adds. -/
theorem Meaning.concat {ls : List (List Char)} {rawLine : List Char} {cfg cfg' : Config}
    (h : Meaning ls cfg)
    (hsections : ∀ sec, (cfg'.getSection sec).isSome = true ↔
      (cfg.getSection sec).isSome = true ∨ OpensSection sec ls rawLine)
    (hsubsections : ∀ sec name, cfg'.HasSubsection sec name ↔
      cfg.HasSubsection sec name ∨ OpensSubsection sec name ls rawLine)
    (hitems : ∀ sec sub key,
      ((∀ v, ¬ Sets sec sub key v ls rawLine) ∧ cfg'.item sec sub key = cfg.item sec sub key) ∨
        ∃ v, Sets sec sub key v ls rawLine ∧ cfg'.item sec sub key = some v)
    (hdiscarded : ∀ n text, (n, text) ∈ cfg'.discarded ↔
      (n, text) ∈ cfg.discarded ∨ (Orphan text ls rawLine ∧ n = ls.length + 1)) :
    Meaning (ls ++ [rawLine]) cfg' where
  sections sec := by rw [hsections, h.sections, exists_at_concat]
  subsections sec name := by rw [hsubsections, h.subsections, exists_at_concat]
  items sec sub key value := by
    rcases hitems sec sub key with ⟨hnot, hsame⟩ | ⟨v, hset, hnew⟩
    · rw [hsame, h.items, lastSet_concat_of_not hnot]
    · rw [hnew, lastSet_concat_of_sets hset, Option.some.injEq]
  discarded n text := by
    rw [hdiscarded, h.discarded]
    simp only [at_concat, or_and_right, exists_or]
    refine or_congr_right ⟨fun hnow => ⟨_, ⟨rfl, hnow.1⟩, hnow.2⟩, ?_⟩
    rintro ⟨i, ⟨rfl, horphan⟩, rfl⟩
    exact ⟨horphan, rfl⟩

/-- What is read so far says what the lines so far say. -/
structure ReadSoFar (ls : List (List Char)) (r : Reader) : Prop where
  meaning : Meaning ls r.cfg
  currentSection : r.currentSection = (placeAfter ls).map Prod.fst
  currentSubsection : r.currentSubsection = (placeAfter ls).bind Prod.snd

namespace ReadSoFar

variable {ls : List (List Char)} {rawLine : List Char} {r : Reader}

section

variable (h : ReadSoFar ls r)

include h

/-- A line that says nothing. -/
theorem silent (hclass : classify rawLine = .blank ∨ classify rawLine = .other) :
    ReadSoFar (ls ++ [rawLine]) r := by
  have hplace : placeAfter (ls ++ [rawLine]) = placeAfter ls := by
    rw [placeAfter_concat]
    rcases hclass with hclass | hclass <;> rw [hclass] <;> rfl
  have hnot : (∀ name, classify rawLine ≠ .header name) ∧
      (∀ name, classify rawLine ≠ .subsection name) ∧
      ∀ key value, classify rawLine ≠ .setting key value := by
    rcases hclass with hclass | hclass <;> rw [hclass] <;>
      exact ⟨fun _ => Line.noConfusion, fun _ => Line.noConfusion, fun _ _ => Line.noConfusion⟩
  obtain ⟨hheader, hsub, hsetting⟩ := hnot
  refine ⟨h.meaning.concat ?_ ?_ ?_ ?_, by rw [hplace]; exact h.currentSection,
    by rw [hplace]; exact h.currentSubsection⟩
  · exact fun sec => (or_iff_left (hheader sec)).symm
  · exact fun sec name => (or_iff_left fun hopens => hsub name hopens.1).symm
  · exact fun sec sub key => Or.inl ⟨fun v ⟨_, _, hset, _⟩ => hsetting _ _ hset, rfl⟩
  · refine fun n text => (or_iff_left ?_).symm
    rintro ⟨⟨-, -, ⟨name, hname⟩ | ⟨key, value, hset⟩⟩, -⟩
    · exact hsub name hname
    · exact hsetting key value hset

/-- A header opens its section. -/
theorem header {name : String} (hclass : classify rawLine = .header name) :
    ReadSoFar (ls ++ [rawLine]) (r.openSection (content rawLine)) := by
  have hplace : placeAfter (ls ++ [rawLine]) = some (name, none) := by
    rw [placeAfter_concat, hclass]
    rfl
  have hname : sectionName (content rawLine) = name := classify_header hclass
  have hitem : ∀ sec sub key,
      (r.openSection (content rawLine)).cfg.item sec sub key = r.cfg.item sec sub key :=
    fun sec sub key => Reader.item_alterSection fun _ _ _ => rfl
  have hget : ∀ sec, ((r.openSection (content rawLine)).cfg.getSection sec).getD {} =
      (r.cfg.getSection sec).getD {} := by
    intro sec
    refine Reader.getSection_alterSection.trans ?_
    split
    · next heq => rw [heq]; rfl
    · rfl
  refine ⟨h.meaning.concat ?_ ?_ ?_ ?_, ?_, ?_⟩
  · intro sec
    refine Reader.isSome_alterSection.trans ?_
    rw [hname, or_comm]
    refine or_congr_right ?_
    unfold OpensSection
    rw [hclass, Line.header.injEq, eq_comm]
  · intro sec sub
    unfold Config.HasSubsection
    rw [hget]
    refine (or_iff_left fun hopens => ?_).symm
    cases hclass.symm.trans hopens.1
  · refine fun sec sub key => Or.inl ⟨?_, hitem sec sub key⟩
    rintro v ⟨chars, inner, hset, -⟩
    cases hclass.symm.trans hset
  · refine fun n text => (or_iff_left ?_).symm
    rintro ⟨⟨-, -, ⟨sub, hsub⟩ | ⟨key, value, hset⟩⟩, -⟩
    · cases hclass.symm.trans hsub
    · cases hclass.symm.trans hset
  · rw [hplace, ← hname]
    rfl
  · rw [hplace]
    rfl

/-- A subsection or a setting where no section is open is discarded. -/
theorem orphan (hnone : placeAfter ls = none)
    (hclass : (∃ name, classify rawLine = .subsection name) ∨
      ∃ key value, classify rawLine = .setting key value) :
    ReadSoFar (ls ++ [rawLine]) (r.discard ls.length (content rawLine)) := by
  have hplace : placeAfter (ls ++ [rawLine]) = none := by
    rw [placeAfter_concat, hnone]
    rcases hclass with ⟨name, hclass⟩ | ⟨key, value, hclass⟩ <;> rw [hclass] <;> rfl
  have hheader : ∀ sec, ¬ OpensSection sec ls rawLine := by
    intro sec hopens
    rcases hclass with ⟨name, hclass⟩ | ⟨key, value, hclass⟩ <;> cases hclass.symm.trans hopens
  refine ⟨h.meaning.concat ?_ ?_ ?_ ?_, ?_, ?_⟩
  · exact fun sec => (or_iff_left (hheader sec)).symm
  · refine fun sec name => (or_iff_left ?_).symm
    rintro ⟨-, sub, hsome⟩
    cases hnone.symm.trans hsome
  · refine fun sec sub key => Or.inl ⟨?_, rfl⟩
    rintro v ⟨chars, inner, -, -, -, hsome⟩
    cases hnone.symm.trans hsome
  · intro n text
    have hmem : (n, text) ∈ (r.discard ls.length (content rawLine)).cfg.discarded ↔
        (n, text) ∈ r.cfg.discarded ∨
          n = ls.length + 1 ∧ text = String.ofList (content rawLine) := by
      refine List.mem_append.trans (or_congr_right ?_)
      rw [List.mem_singleton, Prod.mk.injEq]
    rw [hmem]
    refine or_congr_right ⟨fun hnew => ⟨⟨hnone, hnew.2, hclass⟩, hnew.1⟩, ?_⟩
    rintro ⟨⟨-, htext, -⟩, hn⟩
    exact ⟨hn, htext⟩
  · rw [hplace]
    have hcur := h.currentSection
    rw [hnone] at hcur
    exact hcur
  · rw [hplace]
    have hcur := h.currentSubsection
    rw [hnone] at hcur
    exact hcur

/-- A subsection is opened in the section that is open. -/
theorem subsection {name sec : String} {sub : Option String}
    (hclass : classify rawLine = .subsection name) (hopen : placeAfter ls = some (sec, sub)) :
    ReadSoFar (ls ++ [rawLine]) (r.openSubsection ls.length (content rawLine)) := by
  have hplace : placeAfter (ls ++ [rawLine]) = some (sec, some name) := by
    rw [placeAfter_concat, hclass, hopen]
    rfl
  have hcur : r.currentSection = some sec := by
    rw [h.currentSection, hopen]
    rfl
  have hread : r.openSubsection ls.length (content rawLine) =
      { r.alterSection sec fun s => { s with subsections := alter s.subsections name id }
        with currentSubsection := some name } := by
    unfold Reader.openSubsection
    rw [hcur, classify_subsection hclass]
  rw [hread]
  have hkeep : ∀ (s : ConfigSection) (t : Option String) (key : String),
      sectionItem { s with subsections := alter s.subsections name id } t key =
        sectionItem s t key := by
    intro s t key
    cases t with
    | none => rfl
    | some t =>
        unfold sectionItem ConfigSection.getSection
        dsimp only
        rw [get_alter]
        split
        · next heq => rw [heq]; rfl
        · rfl
  refine ⟨h.meaning.concat ?_ ?_ ?_ ?_, ?_, ?_⟩
  · intro s
    refine Reader.isSome_alterSection.trans ?_
    have hnot : ¬ OpensSection s ls rawLine := fun hopens => by cases hclass.symm.trans hopens
    rw [or_iff_left hnot]
    refine or_iff_right_of_imp ?_
    rintro rfl
    exact (h.meaning.sections s).mpr (opened_of_placeAfter hopen)
  · intro s t
    unfold Config.HasSubsection
    have hget : ((r.alterSection sec fun s =>
        { s with subsections := alter s.subsections name id }).cfg.getSection s).getD {} =
          if s = sec then { (r.cfg.getSection sec).getD {} with
            subsections := alter ((r.cfg.getSection sec).getD {}).subsections name id }
          else (r.cfg.getSection s).getD {} := Reader.getSection_alterSection
    change ((((r.alterSection sec fun s =>
      { s with subsections := alter s.subsections name id }).cfg.getSection s).getD {}).getSection
        t).isSome = true ↔ _
    rw [hget]
    unfold OpensSubsection
    rw [hclass, Line.subsection.injEq, hopen]
    split
    · next heq =>
      subst heq
      refine isSome_get_alter.trans ?_
      rw [or_comm]
      refine or_congr_right ⟨fun hn => ⟨hn.symm, sub, rfl⟩, fun hn => hn.1.symm⟩
    · next hne =>
      refine (or_iff_left ?_).symm
      rintro ⟨-, u, heq⟩
      exact hne (Prod.mk.inj (Option.some.inj heq)).1.symm
  · refine fun s t key => Or.inl ⟨?_, Reader.item_alterSection hkeep⟩
    rintro v ⟨chars, inner, hset, -⟩
    cases hclass.symm.trans hset
  · refine fun n text => (or_iff_left ?_).symm
    rintro ⟨⟨hnone, -⟩, -⟩
    cases hnone.symm.trans hopen
  · rw [hplace]
    exact hcur
  · rw [hplace]
    rfl

/-- A setting is made in the section and subsection that are open. -/
theorem setting {key sec : String} {value inner : List Char}
    {sub : Option String} (hclass : classify rawLine = .setting key value)
    (hinner : unquote value = some inner) (hopen : placeAfter ls = some (sec, sub)) :
    ReadSoFar (ls ++ [rawLine])
      (r.setItem ls.length (content rawLine) key (String.ofList inner)) := by
  have hplace : placeAfter (ls ++ [rawLine]) = placeAfter ls := by
    rw [placeAfter_concat, hclass]
    rfl
  have hsets : Sets sec sub key (String.ofList inner) ls rawLine :=
    ⟨value, inner, hclass, hinner, rfl, hopen⟩
  have hcur : r.currentSection = some sec := by
    rw [h.currentSection, hopen]
    rfl
  have hsub : r.currentSubsection = sub := by
    rw [h.currentSubsection, hopen]
    rfl
  rw [Reader.setItem_eq hcur, hsub]
  have hget : ∀ s, ((r.alterSection sec (setIn sub key (String.ofList inner))).cfg.getSection
      s).getD {} = if s = sec then setIn sub key (String.ofList inner)
        ((r.cfg.getSection sec).getD {}) else (r.cfg.getSection s).getD {} :=
    fun s => Reader.getSection_alterSection
  refine ⟨h.meaning.concat ?_ ?_ ?_ ?_, ?_, ?_⟩
  · intro s
    refine Reader.isSome_alterSection.trans ?_
    have hnot : ¬ OpensSection s ls rawLine := fun hopens => by cases hclass.symm.trans hopens
    rw [or_iff_left hnot]
    refine or_iff_right_of_imp ?_
    rintro rfl
    exact (h.meaning.sections s).mpr (opened_of_placeAfter hopen)
  · intro s t
    have hnot : ¬ OpensSubsection s t ls rawLine := fun hopens => by
      cases hclass.symm.trans hopens.1
    rw [or_iff_left hnot]
    unfold Config.HasSubsection
    rw [hget]
    split
    · next heq =>
      subst heq
      refine isSome_getSection_setIn.trans (or_iff_right_of_imp ?_)
      rintro rfl
      exact (h.meaning.subsections s t).mpr (opened_subsection_of_placeAfter hopen)
    · rfl
  · intro s t k
    rw [Config.item_eq, Config.item_eq, hget]
    by_cases hslot : s = sec ∧ t = sub ∧ k = key
    · obtain ⟨rfl, rfl, rfl⟩ := hslot
      refine Or.inr ⟨_, hsets, ?_⟩
      rw [if_pos rfl, sectionItem_setIn, if_pos ⟨rfl, rfl⟩]
    · refine Or.inl ⟨?_, ?_⟩
      · rintro v ⟨chars, inner', hset, -, -, hplace'⟩
        obtain ⟨rfl, -⟩ := Line.setting.inj (hclass.symm.trans hset)
        obtain ⟨rfl, rfl⟩ := Prod.mk.inj (Option.some.inj (hopen.symm.trans hplace'))
        exact hslot ⟨rfl, rfl, rfl⟩
      · split
        · next heq =>
          rw [sectionItem_setIn, if_neg fun hboth => hslot ⟨heq, hboth⟩, heq]
        · rfl
  · refine fun n text => (or_iff_left ?_).symm
    rintro ⟨⟨hnone, -⟩, -⟩
    cases hnone.symm.trans hopen
  · rw [hplace]
    exact h.currentSection
  · rw [hplace]
    exact h.currentSubsection

/-- One line more is read, unless its value is out of range. -/
theorem readLine {r' : Reader}
    (hread : r.readLine ls.length rawLine = some r') : ReadSoFar (ls ++ [rawLine]) r' := by
  rw [readLine_eq] at hread
  split at hread
  · next hclass => exact Option.some.inj hread ▸ h.silent (Or.inl hclass)
  · next hclass => exact Option.some.inj hread ▸ h.silent (Or.inr hclass)
  · next name hclass =>
    rw [← Option.some.inj hread]
    cases hopen : placeAfter ls with
    | none =>
        have hdiscard : r.openSubsection ls.length (content rawLine) =
            r.discard ls.length (content rawLine) := by
          unfold Reader.openSubsection
          rw [h.currentSection, hopen]
          rfl
        rw [hdiscard]
        exact h.orphan hopen (Or.inl ⟨name, hclass⟩)
    | some place => exact h.subsection hclass hopen
  · next name hclass => exact Option.some.inj hread ▸ h.header hclass
  · next key value hclass =>
    obtain ⟨inner, hinner, rfl⟩ := Option.map_eq_some_iff.mp hread
    cases hopen : placeAfter ls with
    | none =>
        have hdiscard : r.setItem ls.length (content rawLine) key (String.ofList inner) =
            r.discard ls.length (content rawLine) := by
          unfold Reader.setItem
          rw [h.currentSection, hopen]
          rfl
        rw [hdiscard]
        exact h.orphan hopen (Or.inr ⟨key, value, hclass⟩)
    | some place => exact h.setting hclass hinner hopen

end

end ReadSoFar

theorem readSoFar_start : ReadSoFar [] {} where
  meaning := by
    have hnone : ∀ (P : List (List Char) → List Char → Prop) (i : Nat), ¬ At P [] i :=
      fun P i hat => absurd (lt_length_of_at hat) (Nat.not_lt_zero i)
    refine ⟨fun sec => ?_, fun sec name => ?_, fun sec sub key value => ?_, fun n text => ?_⟩
    · exact ⟨fun h => (by cases h), fun ⟨i, hat⟩ => absurd hat (hnone _ i)⟩
    · exact ⟨fun h => (by cases h), fun ⟨i, hat⟩ => absurd hat (hnone _ i)⟩
    · constructor
      · intro h
        cases sub <;> cases h
      · rintro ⟨i, hat, -⟩
        exact absurd hat (hnone _ i)
    · exact ⟨fun h => absurd h List.not_mem_nil, fun ⟨i, hat, _⟩ => absurd hat (hnone _ i)⟩
  currentSection := rfl
  currentSubsection := rfl

/-- Reading on from some lines to more. -/
theorem readSoFar_readLines {ls rest : List (List Char)} {r r' : Reader} (h : ReadSoFar ls r)
    (hread : readLines ls.length rest r = some r') : ReadSoFar (ls ++ rest) r' := by
  induction rest generalizing ls r with
  | nil =>
      rw [List.append_nil, ← Option.some.inj hread]
      exact h
  | cons rawLine rest ih =>
      obtain ⟨m, hline, hrest⟩ := Option.bind_eq_some_iff.mp hread
      have hlength : (ls ++ [rawLine]).length = ls.length + 1 := by
        rw [List.length_append, List.length_singleton]
      have hnext := ih (h.readLine hline) (hlength ▸ hrest)
      rwa [List.append_assoc, List.singleton_append] at hnext

/-- The configuration that is read says what the parts between line feeds say. -/
theorem meaning_of_parts {text : String} {cfg : Config} (h : Config.fromStr text = some cfg) :
    Meaning (text.toList.splitOn '\n') cfg := by
  obtain ⟨r, hr, rfl⟩ := Option.map_eq_some_iff.mp h
  unfold lines at hr
  rw [readLines_endLines] at hr
  exact (readSoFar_readLines readSoFar_start hr).meaning

/-- The configuration that is read says what the lines say. -/
theorem meaning_of_fromStr {text : String} {cfg : Config} (h : Config.fromStr text = some cfg) :
    Meaning (lines text.toList) cfg := by
  obtain ⟨r, hr, rfl⟩ := Option.map_eq_some_iff.mp h
  exact (readSoFar_readLines readSoFar_start hr).meaning

end Reticulum.Configuration
