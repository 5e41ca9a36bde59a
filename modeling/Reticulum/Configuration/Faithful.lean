import Reticulum.Configuration.Meaning

/-!
# A configuration file is read faithfully

Reading goes out of range at a value that is one quotation mark. A line without an equals sign
that is no header is lost, and so is what stands behind a number sign, also between quotation
marks; everything else is in the configuration or reported.
-/

namespace Reticulum.Configuration

open Discovery

/-! ## Headers and settings as they are written -/

/-- A letter that a name can start and end with. -/
def Plain (c : Char) : Prop := isWhitespace c = false ∧ c ≠ '[' ∧ c ≠ ']'

instance (c : Char) : Decidable (Plain c) := inferInstanceAs (Decidable (_ ∧ _))

theorem content_eq_self {chars : List Char} (hcomment : '#' ∉ chars)
    (hfirst : ∀ c ∈ chars.head?, isWhitespace c = false)
    (hlast : ∀ c ∈ chars.getLast?, isWhitespace c = false) : content chars = chars := by
  unfold content stripComment
  rw [splitOnce_eq_none hcomment]
  exact trim_eq_self hfirst hlast

theorem trimStartPairs_of_head {sign : Char} {chars : List Char}
    (h : ∀ c ∈ chars.head?, c ≠ sign) : trimStartPairs sign chars = chars := by
  cases chars with
  | nil => rfl
  | cons a rest =>
      cases rest with
      | nil => rfl
      | cons b rest =>
          rw [trimStartPairs, if_neg fun hboth => h a rfl hboth.1]

/-- A name without a number sign is read from its header. -/
theorem classify_header_of {name : List Char} (hne : name ≠ []) (hcomment : '#' ∉ name)
    (hfirst : ∀ c ∈ name.head?, Plain c) (hlast : ∀ c ∈ name.getLast?, Plain c) :
    classify ('[' :: name ++ [']']) = .header (String.ofList name) := by
  obtain ⟨c, rest, rfl⟩ := List.exists_cons_of_ne_nil hne
  obtain ⟨init, d, hend⟩ := (List.eq_nil_or_concat' (c :: rest)).resolve_left hne
  have hc : Plain c := hfirst c rfl
  have hd : Plain d := hlast d (by rw [hend, List.getLast?_concat]; rfl)
  have hcontent : content ('[' :: (c :: rest) ++ [']']) = '[' :: (c :: rest) ++ [']'] := by
    refine content_eq_self ?_ ?_ ?_
    · simp only [List.cons_append, List.mem_cons, List.mem_append, List.not_mem_nil, or_false,
        not_or] at hcomment ⊢
      exact ⟨by decide, hcomment.1, hcomment.2, by decide⟩
    · rintro _ ⟨⟩
      decide
    · intro e he
      rw [List.getLast?_concat] at he
      obtain rfl := Option.some.inj he
      decide
  have hname : sectionName ('[' :: (c :: rest) ++ [']']) = String.ofList (c :: rest) := by
    unfold sectionName
    rw [List.cons_append, List.dropWhile_cons_of_pos (by decide), List.cons_append,
      List.dropWhile_cons_of_neg (by simp [hc.2.1]), ← List.cons_append, hend,
      List.append_assoc, List.singleton_append, dropEndWhile_append_cons (by simp [hd.2.2])]
    have hgone : dropEndWhile (fun c => c == ']') [']'] = [] := by decide
    rw [hgone, ← hend, trim_eq_self]
    · exact fun e he => (hfirst e he).1
    · exact fun e he => (hlast e he).1
  unfold classify
  dsimp only
  rw [hcontent, if_neg (by simp), if_neg, if_pos, hname]
  · exact ⟨⟨_, rfl⟩, List.suffix_append _ _⟩
  · rintro ⟨⟨t, ht⟩, -⟩
    simp only [List.cons_append, List.nil_append, List.cons.injEq, true_and] at ht
    exact hc.2.1 ht.1.symm

theorem classify_subsection_of {name : List Char} (hne : name ≠ []) (hcomment : '#' ∉ name)
    (hfirst : ∀ c ∈ name.head?, Plain c) (hlast : ∀ c ∈ name.getLast?, Plain c) :
    classify ('[' :: '[' :: name ++ [']', ']']) = .subsection (String.ofList name) := by
  have hcontent : content ('[' :: '[' :: name ++ [']', ']']) = '[' :: '[' :: name ++ [']', ']'] := by
    refine content_eq_self ?_ ?_ ?_
    · simp only [List.cons_append, List.mem_cons, List.mem_append, List.not_mem_nil, or_false,
        not_or]
      exact ⟨by decide, by decide, hcomment, by decide, by decide⟩
    · rintro _ ⟨⟩
      decide
    · intro e he
      have hlast' : ('[' :: '[' :: name ++ [']', ']']).getLast? = some ']' := by
        rw [show [']', ']'] = [']'] ++ [']'] from rfl, ← List.append_assoc, List.getLast?_concat]
      rw [hlast'] at he
      obtain rfl := Option.some.inj he
      decide
  have hstart : trimStartPairs '[' ('[' :: '[' :: name ++ [']', ']']) = name ++ [']', ']'] := by
    rw [List.cons_append, List.cons_append, trimStartPairs, if_pos ⟨rfl, rfl⟩]
    refine trimStartPairs_of_head fun c hc => ?_
    rw [List.head?_append_of_ne_nil _ hne] at hc
    exact (hfirst c hc).2.1
  have hend : trimEndPairs ']' (name ++ [']', ']']) = name := by
    unfold trimEndPairs
    rw [List.reverse_append]
    change (trimStartPairs ']' (']' :: ']' :: name.reverse)).reverse = name
    rw [trimStartPairs, if_pos ⟨rfl, rfl⟩, trimStartPairs_of_head, List.reverse_reverse]
    intro c hc
    rw [List.head?_reverse] at hc
    exact (hlast c hc).2.2
  have hname : subsectionName ('[' :: '[' :: name ++ [']', ']']) = String.ofList name := by
    unfold subsectionName
    rw [hstart, hend, trim_eq_self]
    · exact fun e he => (hfirst e he).1
    · exact fun e he => (hlast e he).1
  unfold classify
  dsimp only
  rw [hcontent, if_neg (by simp), if_pos, hname]
  exact ⟨⟨_, rfl⟩, List.suffix_append _ _⟩

/-- A key without white space, brackets and the signs that split a line. -/
structure Word (chars : List Char) : Prop where
  ne_nil : chars ≠ []
  plain : ∀ c ∈ chars, Plain c ∧ c ≠ '#' ∧ c ≠ '='

/-- A setting is read with its value trimmed. -/
theorem classify_setting_of {indent key value : List Char}
    (hindent : ∀ c ∈ indent, isWhitespace c = true) (hkey : Word key) (hcomment : '#' ∉ value) :
    classify (indent ++ key ++ ' ' :: '=' :: ' ' :: value) =
      .setting (String.ofList key) (trim value) := by
  obtain ⟨c, rest, rfl⟩ := List.exists_cons_of_ne_nil hkey.ne_nil
  have hc := (hkey.plain c List.mem_cons_self).1
  have hspace : isWhitespace ' ' = true := by decide
  have hclean : stripComment (indent ++ (c :: rest) ++ ' ' :: '=' :: ' ' :: value) =
      indent ++ (c :: rest) ++ ' ' :: '=' :: ' ' :: value := by
    unfold stripComment
    rw [splitOnce_eq_none]
    intro hmem
    rcases List.mem_append.mp hmem with hmem | hmem
    · rcases List.mem_append.mp hmem with hmem | hmem
      · exact absurd (hindent _ hmem) (by decide)
      · exact (hkey.plain _ hmem).2.1 rfl
    · simp only [List.mem_cons] at hmem
      rcases hmem with hmem | hmem | hmem | hmem
      · cases hmem
      · cases hmem
      · cases hmem
      · exact hcomment hmem
  have hcontent : content (indent ++ (c :: rest) ++ ' ' :: '=' :: ' ' :: value) =
      (c :: rest ++ [' ']) ++ '=' :: dropEndWhile isWhitespace (' ' :: value) := by
    unfold content
    rw [hclean, List.append_assoc, List.cons_append, trim_indent hindent hc.1]
    have hstop : isWhitespace '=' = false := by decide
    have happend : rest ++ ' ' :: '=' :: ' ' :: value =
        (rest ++ [' ']) ++ '=' :: ' ' :: value := by simp
    rw [happend, dropEndWhile_append_cons hstop]
    rfl
  have hsplit : splitKv (content (indent ++ (c :: rest) ++ ' ' :: '=' :: ' ' :: value)) =
      some (c :: rest, trim value) := by
    have hfront : '=' ∉ c :: rest ++ [' '] := by
      intro hmem
      rcases List.mem_append.mp hmem with hmem | hmem
      · exact (hkey.plain _ hmem).2.2 rfl
      · exact absurd hmem (by decide)
    have hkeyTrim : trim (c :: rest ++ [' ']) = c :: rest := by
      have hone : c :: rest ++ [' '] = [] ++ c :: (rest ++ [' ']) := rfl
      obtain ⟨init, d, hend⟩ := (List.eq_nil_or_concat' (c :: rest)).resolve_left hkey.ne_nil
      have hd : isWhitespace d = false :=
        (hkey.plain d (by rw [hend]; exact List.mem_append_right _ List.mem_cons_self)).1.1
      have hgone : dropEndWhile isWhitespace [' '] = [] := by decide
      unfold trim
      rw [hone, List.nil_append, List.dropWhile_cons_of_neg (by simp [hc.1]), ← List.cons_append,
        hend, List.append_assoc, List.singleton_append, dropEndWhile_append_cons hd, hgone]
    unfold splitKv
    rw [hcontent, splitOnce_append hfront]
    dsimp only
    rw [hkeyTrim, if_neg (List.cons_ne_nil _ _), trim_dropEndWhile, trim_cons_of_whitespace hspace]
  have hnot : ∀ t : List Char, ¬ '[' :: t <+:
      content (indent ++ (c :: rest) ++ ' ' :: '=' :: ' ' :: value) := by
    rintro t ⟨u, hu⟩
    rw [hcontent] at hu
    exact hc.2.1 (List.cons.inj hu).1.symm
  unfold classify
  dsimp only
  rw [if_neg (by rw [hcontent]; simp), if_neg fun h => hnot _ h.1,
    if_neg fun h => hnot _ h.1, hsplit]

/-! ## Values that go out of range -/

/-- A setting whose value is one quotation mark. -/
def LoneQuote (rawLine : List Char) : Prop :=
  ∃ key value, classify rawLine = .setting key value ∧ (value = ['"'] ∨ value = ['\''])

theorem splitOnce_of_classify {rawLine value : List Char} {key : String}
    (h : classify rawLine = .setting key value) :
    ∃ front back, splitOnce '=' (content rawLine) = some (front, back) ∧ value = trim back := by
  unfold classify at h
  dsimp only at h
  split at h
  · cases h
  split at h
  · cases h
  split at h
  · cases h
  split at h
  · next k v hkv =>
    obtain ⟨-, rfl⟩ := Line.setting.inj h
    unfold splitKv at hkv
    split at hkv
    · next front back hsplit =>
      split at hkv
      · cases hkv
      · obtain ⟨-, rfl⟩ := Prod.mk.inj (Option.some.inj hkv)
        exact ⟨front, back, hsplit, rfl⟩
    · cases hkv
  · cases h

theorem trim_of_classify {rawLine value : List Char} {key : String}
    (h : classify rawLine = .setting key value) : trim value = value := by
  obtain ⟨-, -, -, rfl⟩ := splitOnce_of_classify h
  exact trim_trim

theorem unquote_eq_none {value : List Char} :
    unquote value = none ↔ trim value = ['"'] ∨ trim value = ['\''] := by
  unfold unquote
  dsimp only
  constructor
  · intro h
    split at h
    · next hquoted =>
      split at h
      · cases h
      · next hshort =>
        have hone : ∀ {sign : Char} {chars : List Char}, ¬ 2 ≤ chars.length →
            startsAndEnds sign chars → chars = [sign] := by
          rintro sign chars hlt ⟨hhead, -⟩
          cases chars with
          | nil => cases hhead
          | cons a rest =>
              obtain rfl := Option.some.inj hhead
              cases rest with
              | nil => rfl
              | cons b rest => exact absurd (by simp) hlt
        exact hquoted.imp (hone hshort) (hone hshort)
    · cases h
  · rintro (h | h) <;> rw [h] <;> decide

theorem isSome_readLine (r : Reader) (index : Nat) (rawLine : List Char) :
    (r.readLine index rawLine).isSome = true ↔ ¬ LoneQuote rawLine := by
  rw [readLine_eq]
  cases hclass : classify rawLine with
  | blank | other | header | subsection =>
      refine ⟨fun _ hquote => ?_, fun _ => rfl⟩
      obtain ⟨key, value, hset, -⟩ := hquote
      cases hclass.symm.trans hset
  | setting key value =>
      have hquote : LoneQuote rawLine ↔ unquote value = none := by
        rw [unquote_eq_none, trim_of_classify hclass]
        constructor
        · rintro ⟨_, _, hset, hvalue⟩
          obtain ⟨-, rfl⟩ := Line.setting.inj (hclass.symm.trans hset)
          exact hvalue
        · exact fun hvalue => ⟨key, value, hclass, hvalue⟩
      dsimp only
      rw [Option.isSome_map, hquote, Option.isSome_iff_ne_none]

theorem isSome_readLines (ls : List (List Char)) (index : Nat) (r : Reader) :
    (readLines index ls r).isSome = true ↔ ∀ rawLine ∈ ls, ¬ LoneQuote rawLine := by
  induction ls generalizing index r with
  | nil => exact ⟨fun _ rawLine hmem => absurd hmem List.not_mem_nil, fun _ => rfl⟩
  | cons rawLine ls ih =>
      rw [List.forall_mem_cons, ← isSome_readLine r index rawLine]
      change ((r.readLine index rawLine).bind fun m => readLines (index + 1) ls m).isSome = true ↔ _
      cases r.readLine index rawLine with
      | none => exact ⟨fun h => (by cases h), fun h => (by cases h.1)⟩
      | some m => exact (ih (index + 1) m).trans (by simp)

theorem isSome_fromStr (text : String) :
    (Config.fromStr text).isSome = true ↔ ∀ rawLine ∈ lines text.toList, ¬ LoneQuote rawLine := by
  unfold Config.fromStr
  rw [Option.isSome_map]
  exact isSome_readLines _ 0 {}

theorem isSome_fromStr_parts (text : String) : (Config.fromStr text).isSome = true ↔
    ∀ part ∈ text.toList.splitOn '\n', ¬ LoneQuote part := by
  unfold Config.fromStr lines
  rw [Option.isSome_map, readLines_endLines]
  exact isSome_readLines _ 0 {}

/-! ## Nothing is lost -/

/-- The line at `i` is a header, or sets an item that has the value that was set last, or is
reported. -/
def Accounted (text : String) (cfg : Config) : Prop :=
  ∀ i rawLine, (lines text.toList)[i]? = some rawLine → content rawLine ≠ [] →
    ((∃ name, classify rawLine = .header name) ∨ ∃ name, classify rawLine = .subsection name) ∨
    (∃ sec sub key value v, At (Sets sec sub key value) (lines text.toList) i ∧
      LastSet (lines text.toList) sec sub key v ∧ cfg.item sec sub key = some v) ∨
    (i + 1, String.ofList (content rawLine)) ∈ cfg.discarded

/-- Of several settings one is the last. -/
theorem exists_lastSet {ls : List (List Char)} {sec key value : String} {sub : Option String}
    {i : Nat} (h : At (Sets sec sub key value) ls i) : ∃ v, LastSet ls sec sub key v := by
  induction ls using List.reverseRecOn generalizing i value with
  | nil => exact absurd (lt_length_of_at h) (Nat.not_lt_zero i)
  | append_singleton ls rawLine ih =>
      by_cases hset : ∃ v, Sets sec sub key v ls rawLine
      · obtain ⟨v, hv⟩ := hset
        exact ⟨v, (lastSet_concat_of_sets hv).mpr rfl⟩
      · have hnot : ∀ v, ¬ Sets sec sub key v ls rawLine := fun v hv => hset ⟨v, hv⟩
        rcases at_concat.mp h with hbefore | ⟨-, hnow⟩
        · obtain ⟨v, hv⟩ := ih hbefore
          exact ⟨v, (lastSet_concat_of_not hnot).mpr hv⟩
        · exact absurd hnow (hnot value)

theorem content_eq_nil_of_blank {rawLine : List Char} (h : classify rawLine = .blank) :
    content rawLine = [] := by
  unfold classify at h
  dsimp only at h
  split at h
  · next hnil => exact hnil
  split at h
  · cases h
  split at h
  · cases h
  split at h <;> cases h

theorem accounted_iff {text : String} {cfg : Config} (hread : Config.fromStr text = some cfg) :
    Accounted text cfg ↔ ∀ rawLine ∈ lines text.toList, classify rawLine ≠ .other := by
  have hmeaning := meaning_of_fromStr hread
  constructor
  · intro h rawLine hmem hother
    obtain ⟨i, hi⟩ := List.getElem?_of_mem hmem
    have hne : content rawLine ≠ [] := by
      intro hnil
      have hblank : classify rawLine = .blank := by
        unfold classify
        dsimp only
        rw [if_pos hnil]
      cases hother.symm.trans hblank
    rcases h i rawLine hi hne with (⟨name, hname⟩ | ⟨name, hname⟩) |
      ⟨sec, sub, key, value, v, ⟨raw, hraw, chars, inner, hset, -⟩, -⟩ | hdiscarded
    · cases hother.symm.trans hname
    · cases hother.symm.trans hname
    · obtain rfl := Option.some.inj (hi.symm.trans hraw)
      cases hother.symm.trans hset
    · obtain ⟨j, ⟨raw, hraw, -, -, horphan⟩, hj⟩ := (hmeaning.discarded _ _).mp hdiscarded
      obtain rfl : i = j := Nat.succ.inj hj
      obtain rfl := Option.some.inj (hi.symm.trans hraw)
      rcases horphan with ⟨name, hname⟩ | ⟨key, value, hset⟩
      · cases hother.symm.trans hname
      · cases hother.symm.trans hset
  · intro h i rawLine hi hne
    have hmem : rawLine ∈ lines text.toList := List.mem_of_getElem? hi
    cases hclass : classify rawLine with
    | blank => exact absurd (content_eq_nil_of_blank hclass) hne
    | header name => exact Or.inl (Or.inl ⟨name, rfl⟩)
    | subsection name => exact Or.inl (Or.inr ⟨name, rfl⟩)
    | other => exact absurd hclass (h rawLine hmem)
    | setting key chars =>
        right
        cases hplace : placeAfter ((lines text.toList).take i) with
        | none =>
            refine Or.inr ((hmeaning.discarded _ _).mpr ⟨i, ⟨rawLine, hi, hplace, rfl, ?_⟩, rfl⟩)
            exact Or.inr ⟨key, chars, hclass⟩
        | some place =>
            obtain ⟨sec, sub⟩ := place
            have hquote : ¬ LoneQuote rawLine := by
              refine (isSome_fromStr text).mp ?_ rawLine hmem
              rw [hread]
              rfl
            have hsome : unquote chars ≠ none := fun hnone =>
              hquote ⟨key, chars, hclass, trim_of_classify hclass ▸ unquote_eq_none.mp hnone⟩
            obtain ⟨inner, hinner⟩ := Option.ne_none_iff_exists'.mp hsome
            have hset : At (Sets sec sub key (String.ofList inner)) (lines text.toList) i :=
              ⟨rawLine, hi, chars, inner, hclass, hinner, rfl, hplace⟩
            obtain ⟨v, hv⟩ := exists_lastSet hset
            exact Or.inl ⟨sec, sub, key, _, v, hset, hv, (hmeaning.items sec sub key v).mpr hv⟩

/-! ## Quoted values -/

/-- The line at `i` sets the key to the value in quotation marks, in the section and subsection
that are open there, and no later line sets it. -/
structure SetsQuoted (ls : List (List Char)) (i : Nat) (sec : String) (sub : Option String)
    (key value : String) : Prop where
  line : ∃ indent, (∀ c ∈ indent, isWhitespace c = true) ∧
    ls[i]? = some (indent ++ key.toList ++ ' ' :: '=' :: ' ' :: '"' :: (value.toList ++ ['"']))
  place : placeAfter (ls.take i) = some (sec, sub)
  last : ∀ j v, i < j → ¬ At (Sets sec sub key v) ls j

theorem content_subset (rawLine : List Char) : content rawLine ⊆ stripComment rawLine :=
  trim_subset

theorem unquote_subset {chars inner : List Char} (h : unquote chars = some inner) :
    inner ⊆ chars := by
  unfold unquote at h
  dsimp only at h
  have htrim : trim chars ⊆ chars := trim_subset
  split at h
  · split at h
    · obtain rfl := Option.some.inj h
      exact fun c hc => htrim (List.mem_of_mem_tail ((List.dropLast_sublist _).subset hc))
    · cases h
  · obtain rfl := Option.some.inj h
    exact htrim

theorem value_subset {rawLine value : List Char} {key : String}
    (h : classify rawLine = .setting key value) : value ⊆ content rawLine := by
  obtain ⟨front, back, hsplit, rfl⟩ := splitOnce_of_classify h
  rw [(splitOnce_eq_some hsplit).1]
  exact fun c hc => List.mem_append_right _ (List.mem_cons_of_mem _ (trim_subset hc))

/-- A value has no number sign and only letters of its line. -/
theorem subset_of_sets {ls : List (List Char)} {sec key value : String} {sub : Option String}
    {i : Nat} (h : At (Sets sec sub key value) ls i) :
    '#' ∉ value.toList ∧ ∃ rawLine ∈ ls, value.toList ⊆ rawLine := by
  obtain ⟨rawLine, hraw, chars, inner, hset, hinner, rfl, -⟩ := h
  rw [String.toList_ofList]
  have hsub : inner ⊆ stripComment rawLine := fun c hc =>
    content_subset rawLine (value_subset hset (unquote_subset hinner hc))
  refine ⟨fun hmem => comment_not_mem_stripComment rawLine (hsub hmem), rawLine,
    List.mem_of_getElem? hraw, fun c hc => stripComment_subset rawLine (hsub hc)⟩

theorem unquote_quoted (value : List Char) :
    trim ('"' :: (value ++ ['"'])) = '"' :: (value ++ ['"']) ∧
      unquote ('"' :: (value ++ ['"'])) = some value := by
  have hlast : ('"' :: (value ++ ['"'])).getLast? = some '"' := by
    rw [← List.cons_append, List.getLast?_concat]
  have htrim : trim ('"' :: (value ++ ['"'])) = '"' :: (value ++ ['"']) := by
    refine trim_eq_self ?_ ?_
    · rintro _ ⟨⟩
      decide
    · intro c hc
      rw [hlast] at hc
      obtain rfl := Option.some.inj hc
      decide
  refine ⟨htrim, ?_⟩
  unfold unquote
  dsimp only
  rw [htrim, if_pos (Or.inl ⟨rfl, hlast⟩), if_pos (by simp), List.tail_cons,
    List.dropLast_concat]

/-- A quoted value is given back if and only if it has no number sign. -/
theorem item_of_setsQuoted {text : String} {cfg : Config} {i : Nat} {sec key value : String}
    {sub : Option String} (hread : Config.fromStr text = some cfg) (hkey : Word key.toList)
    (hset : SetsQuoted (lines text.toList) i sec sub key value) :
    cfg.item sec sub key = some value ↔ '#' ∉ value.toList := by
  have hmeaning := meaning_of_fromStr hread
  rw [hmeaning.items]
  constructor
  · rintro ⟨j, hj, -⟩
    exact (subset_of_sets hj).1
  · intro hcomment
    obtain ⟨indent, hindent, hline⟩ := hset.line
    refine ⟨i, ⟨_, hline, _, value.toList, ?_, (unquote_quoted value.toList).2, ?_, hset.place⟩,
      hset.last⟩
    · have hclean : '#' ∉ '"' :: (value.toList ++ ['"']) := by
        simp only [List.mem_cons, List.mem_append, List.not_mem_nil, or_false, not_or]
        exact ⟨by decide, hcomment, by decide⟩
      rw [classify_setting_of hindent hkey hclean, String.ofList_toList,
        (unquote_quoted value.toList).1]
    · exact String.ofList_toList.symm

/-- When a file is read, when nothing of it is lost, how headers read, and when a quoted value is
given back. -/
theorem fromStr_faithful (text : String) :
    ((Config.fromStr text).isSome = true ↔
      ∀ rawLine ∈ lines text.toList, ¬ LoneQuote rawLine) ∧
    (∀ cfg, Config.fromStr text = some cfg →
      (Accounted text cfg ↔ ∀ rawLine ∈ lines text.toList, classify rawLine ≠ .other)) ∧
    (∀ name : String, Word name.toList →
      classify ('[' :: name.toList ++ [']']) = .header name ∧
      classify ('[' :: '[' :: name.toList ++ [']', ']']) = .subsection name) ∧
    ∀ cfg i sec sub key value, Config.fromStr text = some cfg → Word key.toList →
      SetsQuoted (lines text.toList) i sec sub key value →
      (cfg.item sec sub key = some value ↔ '#' ∉ value.toList) := by
  refine ⟨isSome_fromStr text, fun cfg hread => accounted_iff hread, fun name hname => ?_,
    fun cfg i sec sub key value hread hkey hset => item_of_setsQuoted hread hkey hset⟩
  have hcomment : '#' ∉ name.toList := fun hmem => (hname.plain _ hmem).2.1 rfl
  have hfirst : ∀ c ∈ name.toList.head?, Plain c := fun c hc =>
    (hname.plain c (List.mem_of_mem_head? hc)).1
  have hlast : ∀ c ∈ name.toList.getLast?, Plain c := fun c hc =>
    (hname.plain c (List.mem_of_mem_getLast? hc)).1
  constructor
  · rw [classify_header_of hname.ne_nil hcomment hfirst hlast, String.ofList_toList]
  · rw [classify_subsection_of hname.ne_nil hcomment hfirst hlast, String.ofList_toList]

/-- A passphrase in a subsection. -/
def sampleText : String := "[s]\n[[t]]\nk = \"v w\"\n"

theorem fromStr_faithful_sample :
    ∃ cfg, Config.fromStr sampleText = some cfg ∧ Accounted sampleText cfg ∧
      classify ['[', 's', ']'] = .header "s" ∧ cfg.item "s" (some "t") "k" = some "v w" := by
  have hword : ∀ c : Char, Plain c ∧ c ≠ '#' ∧ c ≠ '=' → Word [c] := by
    intro c hc
    refine ⟨List.cons_ne_nil _ _, fun d hd => ?_⟩
    rw [List.mem_singleton.mp hd]
    exact hc
  have hlines : lines sampleText.toList = ["[s]".toList, "[[t]]".toList, "k = \"v w\"".toList] := by
    decide
  have hkinds : ∀ rawLine ∈ lines sampleText.toList, ¬ LoneQuote rawLine ∧
      classify rawLine ≠ .other := by
    rw [hlines]
    simp only [List.mem_cons, List.not_mem_nil, or_false]
    rintro rawLine (rfl | rfl | rfl)
    · exact ⟨fun ⟨_, _, h, _⟩ => (by cases h), fun h => (by cases h)⟩
    · exact ⟨fun ⟨_, _, h, _⟩ => (by cases h), fun h => (by cases h)⟩
    · refine ⟨?_, fun h => (by cases h)⟩
      rintro ⟨_, _, h, hquote⟩
      obtain ⟨-, rfl⟩ := Line.setting.inj h
      rcases hquote with h | h <;> cases h
  have hsome := (fromStr_faithful sampleText).1.mpr fun rawLine hmem => (hkinds rawLine hmem).1
  obtain ⟨cfg, hcfg⟩ := Option.isSome_iff_exists.mp hsome
  refine ⟨cfg, hcfg, ((fromStr_faithful _).2.1 cfg hcfg).mpr fun raw hmem => (hkinds raw hmem).2,
    ((fromStr_faithful sampleText).2.2.1 "s" (hword 's' (by decide))).1, ?_⟩
  have hset : SetsQuoted (lines sampleText.toList) 2 "s" (some "t") "k" "v w" := by
    refine ⟨⟨[], fun c hc => absurd hc List.not_mem_nil, by decide⟩, by decide, ?_⟩
    intro j v hj hat
    have hlt := lt_length_of_at hat
    rw [hlines] at hlt
    simp only [List.length_cons, List.length_nil] at hlt
    omega
  exact ((fromStr_faithful _).2.2.2 cfg 2 "s" (some "t") "k" "v w" hcfg (hword 'k' (by decide))
    hset).mpr (by decide)

/-- A lone quotation mark, a line without an equals sign and a number sign in a quoted value. -/
theorem fromStr_faithful_false :
    ¬ (∀ text, (Config.fromStr text).isSome = true) ∧
    ¬ (∀ text cfg, Config.fromStr text = some cfg → Accounted text cfg) ∧
    ¬ ∀ text cfg i sec sub key value, Config.fromStr text = some cfg → Word key.toList →
      '"' ∉ value.toList → SetsQuoted (lines text.toList) i sec sub key value →
      cfg.item sec sub key = some value := by
  refine ⟨fun h => ?_, fun h => ?_, fun h => ?_⟩
  · have hnone : Config.fromStr "[s]\nk = \"" = none := by decide
    have hsome := h "[s]\nk = \""
    rw [hnone] at hsome
    cases hsome
  · have hsome : (Config.fromStr "[s]\nhello").isSome = true := by decide
    obtain ⟨cfg, hcfg⟩ := Option.isSome_iff_exists.mp hsome
    refine (accounted_iff hcfg).mp (h _ cfg hcfg) "hello".toList (by decide) ?_
    rfl
  · have hitem : (Config.fromStr "[s]\nk = \"a#b\"").map (fun cfg => cfg.item "s" none "k") =
        some (some "\"a") := by decide
    obtain ⟨cfg, hcfg, hvalue⟩ := Option.map_eq_some_iff.mp hitem
    have hset : SetsQuoted (lines "[s]\nk = \"a#b\"".toList) 1 "s" none "k" "a#b" := by
      refine ⟨⟨[], fun c hc => absurd hc List.not_mem_nil, by decide⟩, by decide, ?_⟩
      intro j v hj hat
      have hlt := lt_length_of_at hat
      have hlength : (lines "[s]\nk = \"a#b\"".toList).length = 2 := by decide
      omega
    have hword : Word "k".toList := by
      refine ⟨List.cons_ne_nil _ _, fun c hc => ?_⟩
      rw [List.mem_singleton.mp hc]
      decide
    have hsame := h _ cfg 1 "s" none "k" "a#b" hcfg hword (by decide) hset
    rw [hvalue] at hsame
    revert hsame
    decide

end Reticulum.Configuration
