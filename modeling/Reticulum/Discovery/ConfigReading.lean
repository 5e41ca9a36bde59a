import Reticulum.Discovery.ConfigEntry

/-!
# Reading a configuration entry back

The lines of an entry below the header of the interfaces, read by `Config::from_str`: what each
of them sets is what is in the configuration, provided that no text breaks its line.
-/

namespace Reticulum.Discovery

open Reticulum.Configuration

/-! ## Texts that keep to their line -/

/-- No line break and no number sign. -/
structure OneLine (v : String) : Prop where
  newline : '\n' ∉ v.toList
  comment : '#' ∉ v.toList

/-- Reading the text as a value gives the text. -/
def ReadsSelf (v : String) : Prop := unquote v.toList = some v.toList

instance (v : String) : Decidable (ReadsSelf v) := inferInstanceAs (Decidable (_ = _))

/-- Text without white space, quotation marks and number signs. -/
def Token (v : String) : Prop :=
  ∀ c ∈ v.toList, isWhitespace c = false ∧ c ≠ '"' ∧ c ≠ '\'' ∧ c ≠ '#'

theorem Token.oneLine {v : String} (h : Token v) : OneLine v where
  newline hmem := absurd (h _ hmem).1 (by decide)
  comment hmem := (h _ hmem).2.2.2 rfl

theorem Token.readsSelf {v : String} (h : Token v) : ReadsSelf v := by
  have htrim : trim v.toList = v.toList := trim_eq_self
    (fun c hc => (h c (List.mem_of_mem_head? hc)).1)
    (fun c hc => (h c (List.mem_of_mem_getLast? hc)).1)
  unfold ReadsSelf unquote
  dsimp only
  rw [htrim, if_neg]
  rintro (⟨hhead, -⟩ | ⟨hhead, -⟩)
  · exact (h _ (List.mem_of_mem_head? hhead)).2.1 rfl
  · exact (h _ (List.mem_of_mem_head? hhead)).2.2.1 rfl

theorem toNat_of_isAlphanum {c : Char} (h : c.isAlphanum = true) :
    (48 ≤ c.toNat ∧ c.toNat ≤ 57) ∨ (65 ≤ c.toNat ∧ c.toNat ≤ 90) ∨
      (97 ≤ c.toNat ∧ c.toNat ≤ 122) := by
  delta Char.isAlphanum Char.isAlpha Char.isUpper Char.isLower Char.isDigit at h
  simp only [Bool.or_eq_true, Bool.and_eq_true, decide_eq_true_eq, ge_iff_le, UInt32.le_iff_toNat_le] at h
  rcases h with (h | h) | h
  · exact Or.inr (Or.inl h)
  · exact Or.inr (Or.inr h)
  · exact Or.inl h

theorem isWhitespace_of_isAlphanum {c : Char} (h : c.isAlphanum = true) :
    isWhitespace c = false := by
  have hrange := toNat_of_isAlphanum h
  rw [← Bool.not_eq_true]
  intro hspace
  simp only [isWhitespace, Bool.or_eq_true, Bool.and_eq_true, decide_eq_true_eq, beq_iff_eq] at hspace
  omega

theorem ne_of_isAlphanum {c d : Char} (h : c.isAlphanum = true) (hd : d.isAlphanum = false) :
    c ≠ d := by
  rintro rfl
  rw [h] at hd
  cases hd

/-- Letters and digits make a token. -/
theorem token_of_isAlphanum {v : String} (h : ∀ c ∈ v.toList, c.isAlphanum = true) : Token v :=
  fun c hc => ⟨isWhitespace_of_isAlphanum (h c hc), ne_of_isAlphanum (h c hc) (by decide),
    ne_of_isAlphanum (h c hc) (by decide), ne_of_isAlphanum (h c hc) (by decide)⟩

theorem token_toString (n : Nat) : Token (toString n) := by
  refine token_of_isAlphanum fun c hc => ?_
  rw [Nat.toString_eq_ofList_toDigits, String.toList_ofList] at hc
  have hdigit := Nat.isDigit_of_mem_toDigits (by decide) (by decide) hc
  rw [Char.isAlphanum, hdigit, Bool.or_true]

theorem token_shown {value : Option Nat} : Token (shown (value.map toString)) := by
  cases value with
  | none =>
      have hnone : "None".toList.all Char.isAlphanum = true := by decide
      exact token_of_isAlphanum (List.all_eq_true.mp hnone)
  | some n => exact token_toString n

theorem token_hexrep (bytes : Bytes) : Token (hexrep bytes) := by
  have hdigit : ∀ n, n < 16 → (Nat.digitChar n).isAlphanum = true := by decide
  refine token_of_isAlphanum fun c hc => ?_
  unfold hexrep at hc
  rw [String.toList_ofList] at hc
  obtain ⟨b, -, hc⟩ := List.mem_flatMap.mp hc
  have hb := b.toNat_lt
  simp only [List.mem_cons, List.not_mem_nil, or_false] at hc
  rcases hc with rfl | rfl
  · exact hdigit _ (by omega)
  · exact hdigit _ (by omega)

/-! ## Lines of an entry -/

namespace EntryLine

/-- Keys are words, values keep to their line. -/
def Clean : EntryLine → Prop
  | item key value => Word key.toList ∧ OneLine value
  | comment text => '\n' ∉ text.toList

end EntryLine

theorem toList_render_item (key value : String) : (EntryLine.item key value).render.toList =
    [' ', ' '] ++ key.toList ++ ' ' :: '=' :: ' ' :: value.toList := by
  have hindent : "  ".toList = [' ', ' '] := by decide
  have hequals : " = ".toList = [' ', '=', ' '] := by decide
  unfold EntryLine.render
  rw [String.toList_append, String.toList_append, String.toList_append, hindent, hequals]
  simp

theorem classify_item {key value : String} (hkey : Word key.toList) (hvalue : OneLine value) :
    classify (EntryLine.item key value).render.toList = .setting key (trim value.toList) := by
  rw [toList_render_item, classify_setting_of ?_ hkey hvalue.comment, String.ofList_toList]
  intro c hc
  simp only [List.mem_cons, List.not_mem_nil, or_false, or_self] at hc
  subst hc
  decide

theorem classify_comment (text : String) :
    classify (EntryLine.comment text).render.toList = .blank := by
  have hstart : (EntryLine.comment text).render.toList = [' ', ' '] ++ '#' :: ' ' :: text.toList := by
    have hmark : "  # ".toList = [' ', ' ', '#', ' '] := by decide
    unfold EntryLine.render
    rw [String.toList_append, hmark]
    rfl
  have hcontent : content (EntryLine.comment text).render.toList = [] := by
    unfold content stripComment
    rw [hstart, splitOnce_append (by decide)]
    rfl
  unfold classify
  dsimp only
  rw [if_pos hcontent]

/-! ## Reading the lines -/

/-- A name that is read from its header. -/
structure NameReads (name : String) : Prop where
  ne_nil : name.toList ≠ []
  oneLine : OneLine name
  first : ∀ c ∈ name.toList.head?, Plain c
  last : ∀ c ∈ name.toList.getLast?, Plain c

/-- The lines of a configuration with one entry. -/
def entryParts (name : String) (body : List EntryLine) : List String :=
  "[interfaces]" :: ("[[" ++ name ++ "]]") :: body.map EntryLine.render

theorem splitOn_entryParts {name : String} {body : List EntryLine} (hname : '\n' ∉ name.toList)
    (hbody : ∀ line ∈ body, '\n' ∉ line.render.toList) :
    (joined (entryParts name body)).toList.splitOn '\n' =
      (entryParts name body).map String.toList := by
  have hbreak : "\n".toList = ['\n'] := by decide
  unfold joined
  rw [String.toList_intercalate, hbreak, List.splitOn_intercalate]
  · intro line hline
    obtain ⟨part, hpart, rfl⟩ := List.mem_map.mp hline
    unfold entryParts at hpart
    rcases List.mem_cons.mp hpart with rfl | hpart
    · decide
    rcases List.mem_cons.mp hpart with rfl | hpart
    · rw [String.toList_append, String.toList_append, List.mem_append, List.mem_append]
      have hopen : '\n' ∉ "[[".toList := by decide
      have hclose : '\n' ∉ "]]".toList := by decide
      rintro ((hmem | hmem) | hmem)
      · exact hopen hmem
      · exact hname hmem
      · exact hclose hmem
    · obtain ⟨l, hl, rfl⟩ := List.mem_map.mp hpart
      exact hbody l hl
  · exact List.cons_ne_nil _ _

section
variable {name : String} {body : List EntryLine} {cfg : Config}

theorem classify_head : classify "[interfaces]".toList = .header "interfaces" := by rfl

theorem classify_name (h : NameReads name) :
    classify ("[[" ++ name ++ "]]").toList = .subsection name := by
  have hopen : "[[".toList = ['[', '['] := by decide
  have hclose : "]]".toList = [']', ']'] := by decide
  rw [String.toList_append, String.toList_append, hopen, hclose]
  exact (classify_subsection_of h.ne_nil h.oneLine.comment h.first h.last).trans
    (congrArg _ String.ofList_toList)

/-- Settings and comments leave the place open. -/
theorem foldl_enter {place : Place} (lines : List EntryLine) (hbody : ∀ line ∈ lines, line.Clean) :
    (lines.map fun line => line.render.toList).foldl
      (fun place rawLine => enter place (classify rawLine)) place = place := by
  induction lines with
  | nil => rfl
  | cons line lines ih =>
      obtain ⟨hline, hlines⟩ := List.forall_mem_cons.mp hbody
      rw [List.map_cons, List.foldl_cons]
      have hsame : enter place (classify line.render.toList) = place := by
        cases line with
        | item key value => rw [classify_item hline.1 hline.2]; rfl
        | comment text => rw [classify_comment]; rfl
      rw [hsame]
      exact ih hlines

theorem placeAfter_parts (hname : NameReads name) (hbody : ∀ line ∈ body, line.Clean) (j : Nat) :
    placeAfter (((entryParts name body).map String.toList).take (j + 2)) =
      some ("interfaces", some name) := by
  unfold entryParts
  rw [List.map_cons, List.map_cons, List.take_succ_cons, List.take_succ_cons]
  unfold placeAfter
  rw [List.foldl_cons, List.foldl_cons, classify_head, classify_name hname]
  rw [List.map_map, ← List.map_take]
  exact foldl_enter (body.take j) fun line hline => hbody line (List.mem_of_mem_take hline)

/-- The lines of an entry, one by one. -/
theorem getElem?_parts {i : Nat} {rawLine : List Char}
    (h : ((entryParts name body).map String.toList)[i]? = some rawLine) :
    (i = 0 ∧ rawLine = "[interfaces]".toList) ∨
    (i = 1 ∧ rawLine = ("[[" ++ name ++ "]]").toList) ∨
    ∃ j line, i = j + 2 ∧ line ∈ body ∧ rawLine = line.render.toList := by
  unfold entryParts at h
  match i with
  | 0 => exact Or.inl ⟨rfl, (Option.some.inj h).symm⟩
  | 1 => exact Or.inr (Or.inl ⟨rfl, (Option.some.inj h).symm⟩)
  | j + 2 =>
      rw [List.map_cons, List.map_cons, List.getElem?_cons_succ, List.getElem?_cons_succ] at h
      obtain ⟨part, hpart, rfl⟩ := List.mem_map.mp (List.mem_of_getElem? h)
      obtain ⟨line, hline, rfl⟩ := List.mem_map.mp hpart
      exact Or.inr (Or.inr ⟨j, line, rfl, hline, rfl⟩)

theorem exists_getElem?_parts (name : String) {line : EntryLine} (h : line ∈ body) :
    ∃ j, ((entryParts name body).map String.toList)[j + 2]? = some line.render.toList := by
  obtain ⟨j, hj⟩ := List.getElem?_of_mem h
  refine ⟨j, ?_⟩
  unfold entryParts
  rw [List.map_cons, List.map_cons, List.getElem?_cons_succ, List.getElem?_cons_succ, List.map_map,
    List.getElem?_map, hj]
  rfl

/-- No key is set twice. -/
def Distinct (body : List EntryLine) : Prop :=
  ∀ key value value', .item key value ∈ body → .item key value' ∈ body → value = value'

section

variable (hname : NameReads name)

include hname

section

variable (hbody : ∀ line ∈ body, line.Clean)

include hbody

/-- What a line of an entry sets. -/
theorem item_of_sets {i : Nat} {sec key v : String} {sub : Option String}
    (h : At (Sets sec sub key v) ((entryParts name body).map String.toList) i) :
    sec = "interfaces" ∧ sub = some name ∧
      ∃ value inner, .item key value ∈ body ∧ unquote value.toList = some inner ∧
        v = String.ofList inner := by
  obtain ⟨rawLine, hraw, chars, inner, hset, hinner, rfl, hplace⟩ := h
  rcases getElem?_parts hraw with ⟨-, rfl⟩ | ⟨-, rfl⟩ | ⟨j, line, rfl, hline, rfl⟩
  · cases classify_head.symm.trans hset
  · cases (classify_name hname).symm.trans hset
  · rw [placeAfter_parts hname hbody] at hplace
    obtain ⟨rfl, rfl⟩ := Prod.mk.inj (Option.some.inj hplace)
    have hclean := hbody line hline
    cases line with
    | comment text => cases (classify_comment text).symm.trans hset
    | item k value =>
        obtain ⟨rfl, rfl⟩ := Line.setting.inj ((classify_item hclean.1 hclean.2).symm.trans hset)
        rw [unquote_trim] at hinner
        exact ⟨rfl, rfl, value, inner, hline, hinner, rfl⟩

theorem item_iff
    (hdistinct : Distinct body) (h : Meaning ((entryParts name body).map String.toList) cfg)
    {key v : String} : cfg.item "interfaces" (some name) key = some v ↔
      ∃ value inner, .item key value ∈ body ∧ unquote value.toList = some inner ∧
        v = String.ofList inner := by
  rw [h.items]
  constructor
  · rintro ⟨i, hset, -⟩
    exact (item_of_sets hname hbody hset).2.2
  · rintro ⟨value, inner, hitem, hinner, rfl⟩
    obtain ⟨j, hj⟩ := exists_getElem?_parts name hitem
    have hclean := hbody _ hitem
    have hset : At (Sets "interfaces" (some name) key (String.ofList inner))
        ((entryParts name body).map String.toList) (j + 2) :=
      ⟨_, hj, _, inner, classify_item hclean.1 hclean.2, (unquote_trim _).trans hinner, rfl,
        placeAfter_parts hname hbody j⟩
    obtain ⟨v, i, hlast, hlater⟩ := exists_lastSet hset
    obtain ⟨-, -, value', inner', hitem', hinner', hv⟩ := item_of_sets hname hbody hlast
    obtain rfl := hdistinct key value value' hitem hitem'
    obtain rfl := Option.some.inj (hinner.symm.trans hinner')
    subst hv
    exact ⟨i, hlast, hlater⟩

theorem sections_iff
    (h : Meaning ((entryParts name body).map String.toList) cfg) (sec : String) :
    (cfg.getSection sec).isSome = true ↔ sec = "interfaces" := by
  rw [h.sections]
  constructor
  · rintro ⟨i, rawLine, hraw, hopens⟩
    rcases getElem?_parts hraw with ⟨-, rfl⟩ | ⟨-, rfl⟩ | ⟨j, line, rfl, hline, rfl⟩
    · exact (Line.header.inj (classify_head.symm.trans hopens)).symm
    · cases (classify_name hname).symm.trans hopens
    · have hclean := hbody line hline
      cases line with
      | comment text => cases (classify_comment text).symm.trans hopens
      | item key value => cases (classify_item hclean.1 hclean.2).symm.trans hopens
  · rintro rfl
    exact ⟨0, _, rfl, classify_head⟩

theorem subsections_iff
    (h : Meaning ((entryParts name body).map String.toList) cfg) (sub : String) :
    cfg.HasSubsection "interfaces" sub ↔ sub = name := by
  rw [h.subsections]
  constructor
  · rintro ⟨i, rawLine, hraw, hopens, -⟩
    rcases getElem?_parts hraw with ⟨-, rfl⟩ | ⟨-, rfl⟩ | ⟨j, line, rfl, hline, rfl⟩
    · cases classify_head.symm.trans hopens
    · exact (Line.subsection.inj ((classify_name hname).symm.trans hopens)).symm
    · have hclean := hbody line hline
      cases line with
      | comment text => cases (classify_comment text).symm.trans hopens
      | item key value => cases (classify_item hclean.1 hclean.2).symm.trans hopens
  · rintro rfl
    exact ⟨1, _, rfl, classify_name hname, none, rfl⟩

theorem discarded_nil
    (h : Meaning ((entryParts name body).map String.toList) cfg) : cfg.discarded = [] := by
  rw [List.eq_nil_iff_forall_not_mem]
  rintro ⟨n, text⟩ hmem
  obtain ⟨i, ⟨rawLine, hraw, hplace, -, hkind⟩, -⟩ := (h.discarded n text).mp hmem
  rcases getElem?_parts hraw with ⟨rfl, rfl⟩ | ⟨rfl, rfl⟩ | ⟨j, line, rfl, hline, rfl⟩
  · rcases hkind with ⟨sub, hsub⟩ | ⟨key, value, hset⟩
    · cases classify_head.symm.trans hsub
    · cases classify_head.symm.trans hset
  · cases hplace
  · rw [placeAfter_parts hname hbody] at hplace
    cases hplace

/-- Reading goes out of range at a value that does. -/
theorem not_loneQuote_iff :
    (∀ part ∈ (entryParts name body).map String.toList, ¬ LoneQuote part) ↔
      ∀ key value, .item key value ∈ body → unquote value.toList ≠ none := by
  constructor
  · intro h key value hitem hnone
    obtain ⟨j, hj⟩ := exists_getElem?_parts name hitem
    have hclean := hbody _ hitem
    exact h _ (List.mem_of_getElem? hj) ⟨key, _, classify_item hclean.1 hclean.2,
      unquote_eq_none.mp hnone⟩
  · rintro h part hpart ⟨key, chars, hset, hquote⟩
    obtain ⟨i, hi⟩ := List.getElem?_of_mem hpart
    rcases getElem?_parts hi with ⟨-, rfl⟩ | ⟨-, rfl⟩ | ⟨j, line, -, hline, rfl⟩
    · cases classify_head.symm.trans hset
    · cases (classify_name hname).symm.trans hset
    · have hclean := hbody line hline
      cases line with
      | comment text => cases (classify_comment text).symm.trans hset
      | item k value =>
          obtain ⟨rfl, rfl⟩ := Line.setting.inj ((classify_item hclean.1 hclean.2).symm.trans hset)
          exact h k value hline (unquote_eq_none.mpr hquote)

end

end

end

end Reticulum.Discovery
