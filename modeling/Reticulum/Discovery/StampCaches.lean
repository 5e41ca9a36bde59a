import Reticulum.Discovery.Handler
import Reticulum.Lib.Runs

/-!
# The stamp caches of a discovery handler

A handler looks into its caches before it reads the flags of an announce, and the hash it looks
for does not cover them. `caches_transparent` says in which runs the outcome of every announce
is that of a handler with empty caches.

## Implementation notes

The state of a run has, beside the handler, the outcomes so far and for each hash the flag and
the data of the announce that was last examined under it.
-/

namespace Reticulum.Discovery

/-! ## The size of the caches -/

variable {a : Announce} {handler : Handler} {entries : List (Bytes × StampCheck)} {set : Setting}

namespace ValidCache

/-- Each hash has one entry and one place in the order. -/
structure Tidy (cache : ValidCache) : Prop where
  nodup : cache.order.Nodup
  perm : (cache.entries.map Prod.fst).Perm cache.order

theorem retain_keys (entries : List (Bytes × StampCheck)) (keep : Bytes → Bool) :
    (Assoc.retain keep entries).map Prod.fst = (entries.map Prod.fst).filter keep := by
  rw [Assoc.retain, List.filter_map]
  rfl

theorem put_keys (entries : List (Bytes × StampCheck)) (key : Bytes) (check : StampCheck) :
    (Assoc.put entries key check).map Prod.fst =
      key :: (entries.map Prod.fst).filter fun k => k ≠ key := by
  rw [Assoc.put, List.map_cons, List.filter_map]
  rfl

/-- Trimming ends with few enough entries, since each of them has its place in the order. -/
theorem trim_spec {order : List Bytes} (h : Tidy { entries := entries, order := order }) :
    (trim entries order).Tidy ∧ (trim entries order).entries.length ≤ validCacheMax := by
  induction order generalizing entries with
  | nil =>
      have hlength := h.perm.length_eq
      rw [List.length_map] at hlength
      exact ⟨h, by simp only [trim, hlength]; exact Nat.zero_le _⟩
  | cons oldest order ih =>
      rw [trim]
      split
      · obtain ⟨hnew, hnodup⟩ := List.nodup_cons.mp h.nodup
        refine ih ⟨hnodup, ?_⟩
        rw [retain_keys]
        refine (h.perm.filter _).trans ?_
        have hrest : order.filter (fun key => key != oldest) = order := by
          refine List.filter_eq_self.mpr fun key hkey => ?_
          exact bne_iff_ne.mpr fun heq => hnew (heq ▸ hkey)
        simp [hrest]
      · rename_i hfew
        exact ⟨h, Nat.le_of_not_lt hfew⟩

theorem get_eq_none_iff {key : Bytes} :
    (Assoc.get entries key).isNone = true ↔ key ∉ entries.map Prod.fst := by
  rw [Option.isNone_iff_eq_none, Assoc.get, Option.map_eq_none_iff, List.find?_eq_none]
  constructor
  · rintro h hmem
    obtain ⟨e, he, rfl⟩ := List.mem_map.mp hmem
    simpa using h e he
  · rintro h e he
    simpa using fun hkey : e.1 = key => h (hkey ▸ List.mem_map_of_mem he)

theorem insert_spec {cache : ValidCache} (h : cache.Tidy) (key : Bytes) (check : StampCheck) :
    (cache.insert key check).Tidy ∧ (cache.insert key check).entries.length ≤ validCacheMax := by
  refine trim_spec ?_
  split
  · rename_i hnone
    have hnew : key ∉ cache.entries.map Prod.fst := get_eq_none_iff.mp hnone
    have horder : key ∉ cache.order := fun hmem => hnew (h.perm.mem_iff.mpr hmem)
    refine ⟨?_, ?_⟩
    · exact List.nodup_append.mpr ⟨h.nodup, List.nodup_cons.mpr ⟨List.not_mem_nil, List.nodup_nil⟩,
        fun a ha b hb hab => horder (by rw [← List.mem_singleton.mp hb, ← hab]; exact ha)⟩
    · rw [put_keys]
      have hkeep : (cache.entries.map Prod.fst).filter (fun k => k ≠ key) =
          cache.entries.map Prod.fst :=
        List.filter_eq_self.mpr fun k hk => by simpa using fun heq : k = key => hnew (heq ▸ hk)
      rw [hkeep]
      exact (h.perm.cons key).trans (List.perm_append_singleton key cache.order).symm
  · rename_i hsome
    have hold : key ∈ cache.entries.map Prod.fst := by
      by_contra hnew
      exact hsome (get_eq_none_iff.mpr hnew)
    have hnodup : (cache.entries.map Prod.fst).Nodup := h.perm.nodup_iff.mpr h.nodup
    refine ⟨h.nodup, ?_⟩
    rw [put_keys]
    refine List.Perm.trans ?_ h.perm
    have hfilter : (cache.entries.map Prod.fst).filter (fun k => k ≠ key) =
        (cache.entries.map Prod.fst).erase key := by
      rw [hnodup.erase_eq_filter]
      congr
      funext k
      by_cases hk : k = key
      · simp [hk]
      · simp [hk, bne]
    rw [hfilter]
    exact (List.perm_cons_erase hold).symm

/-- What a trimmed cache finds was there before. -/
theorem get_trim {order : List Bytes} {key : Bytes} {check : StampCheck}
    (h : Assoc.get (trim entries order).entries key = some check) :
    Assoc.get entries key = some check := by
  induction order generalizing entries with
  | nil => exact h
  | cons oldest order ih =>
      rw [trim] at h
      split at h
      · have hget := ih h
        by_cases hkey : (key != oldest) = true
        · have hkept : Assoc.get (Assoc.retain (fun k => k != oldest) entries) key =
              Assoc.get entries key := Assoc.get_retain hkey
          exact hkept.symm.trans hget
        · exfalso
          have hnone : (Assoc.get (Assoc.retain (fun k => k != oldest) entries) key).isNone =
              true := by
            rw [get_eq_none_iff, retain_keys]
            intro hmem
            exact hkey (List.mem_filter.mp hmem).2
          rw [hget] at hnone
          cases hnone
      · exact h

/-- An inserted check is found or trimmed; others are as they were, or trimmed. -/
theorem get_insert {cache : ValidCache} {key key' : Bytes} {check check' : StampCheck}
    (h : Assoc.get (cache.insert key check).entries key' = some check') :
    key' = key ∧ check' = check ∨
      key' ≠ key ∧ Assoc.get cache.entries key' = some check' := by
  have hput := get_trim h
  by_cases hkey : key' = key
  · subst hkey
    rw [Assoc.get_put_self] at hput
    exact Or.inl ⟨rfl, (Option.some.inj hput).symm⟩
  · rw [Assoc.get_put_of_ne hkey] at hput
    exact Or.inr ⟨hkey, hput⟩

end ValidCache

theorem length_pushInvalid_le (cache : List Bytes) (key : Bytes) :
    (pushInvalid cache key).length ≤ invalidCacheMax := by
  unfold pushInvalid
  rw [List.length_drop]
  omega

theorem mem_pushInvalid {cache : List Bytes} {key key' : Bytes} (h : key' ∈ pushInvalid cache key) :
    key' ∈ cache ∨ key' = key := by
  rcases List.mem_append.mp (List.drop_subset _ _ h) with hold | hnew
  · exact Or.inl hold
  · exact Or.inr (List.mem_singleton.mp hnew)

theorem settle_validCache (set : Setting) (handler : Handler) (a : Announce) (check : StampCheck) :
    (handler.settle set a check).validCache = handler.validCache := by
  unfold Handler.settle
  split
  · rfl
  · rfl

/-- A hash in the cache of insufficient stamps was there, or the check has put it there. -/
theorem mem_settle {check : StampCheck} {hash : Bytes}
    (h : hash ∈ (handler.settle set a check).invalidCache) :
    hash ∈ handler.invalidCache ∨ hash = set.lib.fullHash a.data ∧ check.valid = false := by
  unfold Handler.settle at h
  split at h
  · exact Or.inl h
  · rename_i hvalid
    dsimp only at h
    exact (mem_pushInvalid h).imp_right fun hhash => ⟨hhash, by simpa using hvalid⟩

/-- Neither cache holds too much. -/
structure Bounded (handler : Handler) : Prop where
  tidy : handler.validCache.Tidy
  valid : handler.validCache.entries.length ≤ validCacheMax
  invalid : handler.invalidCache.length ≤ invalidCacheMax

namespace Bounded

theorem new : Bounded .new where
  tidy := ⟨List.nodup_nil, List.Perm.nil⟩
  valid := Nat.zero_le _
  invalid := Nat.zero_le _

theorem settle (h : Bounded handler) (set : Setting) (a : Announce) (check : StampCheck) :
    Bounded (handler.settle set a check) where
  tidy := by rw [settle_validCache]; exact h.tidy
  valid := by rw [settle_validCache]; exact h.valid
  invalid := by
    unfold Handler.settle
    split
    · exact h.invalid
    · dsimp only
      exact length_pushInvalid_le _ _

theorem insert (h : Bounded handler) (key : Bytes) (check : StampCheck) :
    Bounded { handler with validCache := handler.validCache.insert key check } where
  tidy := (ValidCache.insert_spec h.tidy key check).1
  valid := (ValidCache.insert_spec h.tidy key check).2
  invalid := h.invalid

theorem decodeAnnounce (h : Bounded handler) (set : Setting) (a : Announce) :
    Bounded (handler.decodeAnnounce set a).1 := by
  unfold Handler.decodeAnnounce
  split
  · exact h
  dsimp only
  split
  · exact h
  split
  · exact h.settle set a _
  split
  · exact h
  · exact h
  · exact (h.insert _ _).settle set a _

end Bounded

/-! ## Runs -/

namespace Handler

/-- The hash is in one of the caches. -/
def knows (handler : Handler) (hash : Bytes) : Bool :=
  handler.invalidCache.contains hash || (Assoc.get handler.validCache.entries hash).isSome

end Handler

/-- The handler, what was examined under each hash, and what came of each announce. -/
structure Record where
  handler : Handler
  origins : List (Bytes × (Bool × Bytes))
  outcomes : List (Announce × Outcome)

namespace Record

/-- Nothing was announced yet. -/
def start : Record := { handler := .new, origins := [], outcomes := [] }

/-- An announce is handled. -/
def step (set : Setting) (s : Record) (a : Announce) : Option Record :=
  let hash := set.lib.fullHash a.data
  let handled := s.handler.decodeAnnounce set a
  some
    { handler := handled.1
      origins :=
        if s.handler.knows hash then s.origins
        else Assoc.put s.origins hash (a.encrypted, a.data)
      outcomes := s.outcomes ++ [(a, handled.2)] }

end Record

/-- Every outcome is that of empty caches, and no cache holds too much. -/
structure Transparent (set : Setting) (s : Record) : Prop where
  outcomes : ∀ e ∈ s.outcomes, e.2 = Handler.fresh set e.1
  validBounded : s.handler.validCache.entries.length ≤ validCacheMax
  invalidBounded : s.handler.invalidCache.length ≤ invalidCacheMax

/-- An announce that is looked up, and whose hash is in a cache, has the flag and the data of the
one that put it there. -/
def SameOrigin (set : Setting) (s : Record) (a : Announce) : Prop :=
  set.admits a = true → s.handler.knows (set.lib.fullHash a.data) = true →
    Assoc.get s.origins (set.lib.fullHash a.data) = some (a.encrypted, a.data)

/-- The invariant: what the caches hold is what an examination of its origin gives. -/
structure Faithful (set : Setting) (s : Record) : Prop where
  outcomes : ∀ e ∈ s.outcomes, e.2 = Handler.fresh set e.1
  bounded : Bounded s.handler
  valid : ∀ hash check, Assoc.get s.handler.validCache.entries hash = some check →
    ∃ origin, Assoc.get s.origins hash = some origin ∧
      set.examine origin.1 origin.2 = .ok (some check)
  invalid : ∀ hash ∈ s.handler.invalidCache,
    ∃ origin check, Assoc.get s.origins hash = some origin ∧
      set.examine origin.1 origin.2 = .ok (some check) ∧ check.valid = false

namespace Faithful

theorem transparent {s : Record} (h : Faithful set s) : Transparent set s :=
  ⟨h.outcomes, h.bounded.valid, h.bounded.invalid⟩

theorem start (set : Setting) : Faithful set .start where
  outcomes _ h := absurd h List.not_mem_nil
  bounded := Bounded.new
  valid _ _ h := by cases h
  invalid _ h := absurd h List.not_mem_nil

/-- An outcome is added. -/
theorem outcomes_append {s : Record} (h : Faithful set s) {outcome : Outcome}
    (houtcome : outcome = Handler.fresh set a) :
    ∀ e ∈ s.outcomes ++ [(a, outcome)], e.2 = Handler.fresh set e.1 := by
  intro e he
  rcases List.mem_append.mp he with hold | hnew
  · exact h.outcomes e hold
  · rw [List.mem_singleton.mp hnew]
    exact houtcome

/-- The handler stays as it is. A hash that is in no cache may get another origin. -/
theorem ignore {s : Record} (h : Faithful set s) {outcome : Outcome}
    (houtcome : outcome = Handler.fresh set a) :
    Faithful set
      { handler := s.handler
        origins :=
          if s.handler.knows (set.lib.fullHash a.data) then s.origins
          else Assoc.put s.origins (set.lib.fullHash a.data) (a.encrypted, a.data)
        outcomes := s.outcomes ++ [(a, outcome)] } := by
  have hkept : ∀ hash origin, s.handler.knows hash = true →
      Assoc.get s.origins hash = some origin →
      Assoc.get (if s.handler.knows (set.lib.fullHash a.data) then s.origins
        else Assoc.put s.origins (set.lib.fullHash a.data) (a.encrypted, a.data)) hash =
          some origin := by
    intro hash origin hknown horigin
    split
    · exact horigin
    · rename_i hunknown
      have hne : hash ≠ set.lib.fullHash a.data := fun heq => hunknown (heq ▸ hknown)
      rw [Assoc.get_put_of_ne hne]
      exact horigin
  refine ⟨h.outcomes_append houtcome, h.bounded, ?_, ?_⟩
  · intro hash check hget
    obtain ⟨origin, horigin, hexamine⟩ := h.valid hash check hget
    exact ⟨origin, hkept hash origin (by simp [Handler.knows, hget]) horigin, hexamine⟩
  · intro hash hmem
    obtain ⟨origin, check, horigin, hexamine, hvalid⟩ := h.invalid hash hmem
    exact ⟨origin, check, hkept hash origin (by simp [Handler.knows, hmem]) horigin, hexamine,
      hvalid⟩

/-- An announce in no cache is examined and its check kept. -/
theorem examined {s : Record} (h : Faithful set s) {check : StampCheck}
    (hunknown : s.handler.knows (set.lib.fullHash a.data) = false)
    (hexamine : set.examine a.encrypted a.data = .ok (some check))
    (houtcome : set.verdict a check = Handler.fresh set a) :
    Faithful set
      { handler :=
          Handler.settle set
            { s.handler with
              validCache := s.handler.validCache.insert (set.lib.fullHash a.data) check } a check
        origins := Assoc.put s.origins (set.lib.fullHash a.data) (a.encrypted, a.data)
        outcomes := s.outcomes ++ [(a, set.verdict a check)] } := by
  have hother : ∀ hash, hash ∈ s.handler.invalidCache → hash ≠ set.lib.fullHash a.data := by
    rintro hash hmem rfl
    simp [Handler.knows, hmem] at hunknown
  refine ⟨h.outcomes_append houtcome, (h.bounded.insert _ check).settle set a check, ?_, ?_⟩
  · intro hash check' hget
    dsimp only at hget ⊢
    rw [settle_validCache] at hget
    rcases ValidCache.get_insert hget with ⟨rfl, rfl⟩ | ⟨hne, hold⟩
    · exact ⟨_, Assoc.get_put_self, hexamine⟩
    · obtain ⟨origin, horigin, hold⟩ := h.valid hash check' hold
      exact ⟨origin, by rw [Assoc.get_put_of_ne hne]; exact horigin, hold⟩
  · intro hash hmem
    rcases mem_settle hmem with hold | ⟨rfl, hvalid⟩
    · obtain ⟨origin, check', horigin, hold', hvalid⟩ := h.invalid hash hold
      exact ⟨origin, check', by rw [Assoc.get_put_of_ne (hother hash hold)]; exact horigin, hold',
        hvalid⟩
    · exact ⟨_, check, Assoc.get_put_self, hexamine, hvalid⟩

theorem step {s s' : Record} (h : Faithful set s) (hok : SameOrigin set s a)
    (hstep : s.step set a = some s') : Faithful set s' := by
  obtain rfl := Option.some.inj hstep
  have hfresh := Handler.fresh_eq set a
  cases hadmits : set.admits a with
  | false =>
      have hhandled : s.handler.decodeAnnounce set a = (s.handler, .ignored) := by
        simp [Handler.decodeAnnounce, hadmits]
      rw [hhandled]
      exact h.ignore (by rw [hfresh, hadmits]; rfl)
  | true =>
      simp only [hadmits, Bool.not_true, Bool.false_eq_true, if_false] at hfresh
      by_cases hinvalid : set.lib.fullHash a.data ∈ s.handler.invalidCache
      · have hhandled : s.handler.decodeAnnounce set a = (s.handler, .ignored) := by
          simp [Handler.decodeAnnounce, hadmits, hinvalid]
        rw [hhandled]
        refine h.ignore ?_
        obtain ⟨origin, check, horigin, hexamine, hvalid⟩ := h.invalid _ hinvalid
        rw [hok hadmits (by simp [Handler.knows, hinvalid])] at horigin
        obtain rfl := Option.some.inj horigin
        rw [hfresh, hexamine]
        simp [Setting.verdict, hvalid]
      · cases hget : Assoc.get s.handler.validCache.entries (set.lib.fullHash a.data) with
        | some check =>
            have hknows : s.handler.knows (set.lib.fullHash a.data) = true := by
              simp [Handler.knows, hget]
            have hhandled : s.handler.decodeAnnounce set a =
                (s.handler.settle set a check, set.verdict a check) := by
              simp [Handler.decodeAnnounce, hadmits, hinvalid, hget]
            obtain ⟨origin, horigin, hexamine⟩ := h.valid _ check hget
            rw [hok hadmits hknows] at horigin
            obtain rfl := Option.some.inj horigin
            have houtcome : set.verdict a check = Handler.fresh set a := by
              rw [hfresh, hexamine]
            rw [hhandled, if_pos hknows]
            refine ⟨h.outcomes_append houtcome, h.bounded.settle set a check, ?_, ?_⟩
            · dsimp only
              rw [settle_validCache]
              exact h.valid
            · intro hash hmem
              rcases mem_settle hmem with hold | ⟨rfl, hvalid⟩
              · exact h.invalid hash hold
              · exact ⟨_, check, hok hadmits hknows, hexamine, hvalid⟩
        | none =>
            have hunknown : s.handler.knows (set.lib.fullHash a.data) = false := by
              simp [Handler.knows, hinvalid, hget]
            cases hexamine : set.examine a.encrypted a.data with
            | error e =>
                have hhandled : s.handler.decodeAnnounce set a = (s.handler, .failed e) := by
                  simp [Handler.decodeAnnounce, hadmits, hinvalid, hget, hexamine]
                rw [hhandled]
                exact h.ignore (by rw [hfresh, hexamine])
            | ok check =>
                cases check with
                | none =>
                    have hhandled : s.handler.decodeAnnounce set a = (s.handler, .ignored) := by
                      simp [Handler.decodeAnnounce, hadmits, hinvalid, hget, hexamine]
                    rw [hhandled]
                    exact h.ignore (by rw [hfresh, hexamine])
                | some check =>
                    have hhandled : s.handler.decodeAnnounce set a =
                        (Handler.settle set
                          { s.handler with
                            validCache := s.handler.validCache.insert
                              (set.lib.fullHash a.data) check } a check,
                          set.verdict a check) := by
                      simp [Handler.decodeAnnounce, hadmits, hinvalid, hget, hexamine]
                    rw [hhandled, hunknown]
                    exact h.examined hunknown hexamine (by rw [hfresh, hexamine])

end Faithful

/-- Whatever comes, the caches stay within their limits. -/
theorem caches_bounded (set : Setting) (announces : List Announce) :
    Runs.Always (Record.step set) (fun s => Bounded s.handler) .start announces := by
  intro done s' _ hrun
  refine Runs.invariant_of_step (P := fun s => Bounded s.handler) ?_ Bounded.new hrun
  intro s a s' h hstep
  obtain rfl := Option.some.inj hstep
  exact h.decodeAnnounce set a

/-- In every run in which an announce whose hash is in a cache has the flag and the data of the
announce that put it there, the caches cannot be noticed. -/
theorem caches_transparent (set : Setting) (announces : List Announce)
    (h : Runs.Meets (Record.step set) (SameOrigin set) .start announces) :
    Runs.Always (Record.step set) (Transparent set) .start announces := by
  intro done s' hdone hrun
  exact Runs.always_of_meets (P := Faithful set)
    (fun _ _ _ hs hok hstep => Faithful.step hs hok hstep)
    (Faithful.start set) h done s' hdone hrun |>.transparent

/-! ## One announce decides the fate of another -/

/-- The dictionary of a radio interface, as the reference packs it. -/
def readableInfo : Value :=
  .map
    [(.integer 0, .string (some "KISSInterface")), (.integer 1, .boolean true),
      (.integer 254, .binary [1, 2, 3, 4, 5, 6, 7, 8, 9, 10, 11, 12, 13, 14, 15, 16]),
      (.integer 255, .string (some "Node")), (.integer 3, .nil), (.integer 4, .nil),
      (.integer 5, .nil), (.integer 9, .nil), (.integer 10, .nil), (.integer 13, .nil)]

/-- A node without a network identity that hears such an interface. -/
def listenerSetting : Setting where
  lib := { sampleLibraries with decode := fun _ => .ok readableInfo }
  requiredValue := 0
  discoverySources := []
  networkIdentity := none
  backboneSupport := true

/-- The same data, marked as encrypted. -/
def sealedAnnounce : Announce := { sampleAnnounce with appData := 2 :: sampleAnnounce.data }

/-- An announce with a valid stamp is the first in the caches. -/
theorem decodeAnnounce_new {check : StampCheck} (hadmits : set.admits a = true)
    (hexamine : set.examine a.encrypted a.data = .ok (some check)) (hvalid : check.valid = true) :
    (Handler.new.decodeAnnounce set a).1 =
      { validCache :=
          { entries := [(set.lib.fullHash a.data, check)], order := [set.lib.fullHash a.data] }
        invalidCache := [] } := by
  simp [Handler.decodeAnnounce, hadmits, hexamine, Handler.new, Handler.settle, hvalid,
    Assoc.get, Assoc.put, ValidCache.insert, ValidCache.trim, validCacheMax]

/-- Its check answers every announce with the same hash. -/
theorem decodeAnnounce_cached {check : StampCheck} (hadmits : set.admits a = true) :
    (Handler.decodeAnnounce set
      { validCache :=
          { entries := [(set.lib.fullHash a.data, check)], order := [set.lib.fullHash a.data] }
        invalidCache := [] } a).2 = set.verdict a check := by
  simp [Handler.decodeAnnounce, hadmits, Assoc.get]

/-- What transparency says of the second of two announces. -/
theorem second_eq_fresh {a b : Announce}
    (h : Runs.Always (Record.step set) (Transparent set) .start [a, b]) :
    ((Handler.new.decodeAnnounce set a).1.decodeAnnounce set b).2 = Handler.fresh set b :=
  (h _ _ List.prefix_rfl rfl).outcomes
    (b, ((Handler.new.decodeAnnounce set a).1.decodeAnnounce set b).2)
    (List.mem_append_right _ (List.mem_singleton.mpr rfl))

/-- Any stamp will do where none is required. -/
theorem stampCheck_valid_of_zero (set : Setting) (data : Bytes) (hrequired : set.requiredValue = 0)
    (hlength : stampSize ≤ data.length) : (set.stampCheck data).valid = true := by
  have hstamp : (data.drop (data.length - stampSize)).length = stampSize := by
    rw [List.length_drop]
    omega
  simp [Setting.stampCheck, Libraries.stampValid, hstamp, hrequired]

theorem report_listener (check : StampCheck) :
    ∃ info, listenerSetting.report sealedAnnounce check = .called info := ⟨_, rfl⟩

/-- An announce heard twice has one origin. -/
theorem sameOrigin_twice (set : Setting) (a : Announce) :
    Runs.Meets (Record.step set) (SameOrigin set) .start [a, a] := by
  intro s hs
  obtain rfl := Option.some.inj hs
  exact ⟨fun _ h => (by cases h), fun _ _ => ⟨fun _ _ => Assoc.get_put_self, True.intro⟩⟩

theorem caches_transparent_twice :
    Runs.Always (Record.step listenerSetting) (Transparent listenerSetting) .start
      [sampleAnnounce, sampleAnnounce] :=
  caches_transparent listenerSetting _ (sameOrigin_twice listenerSetting sampleAnnounce)

/-- An announce in the clear is checked and cached. The same data comes marked as encrypted: a
node without a network identity ignores it, but this one calls its callback. -/
theorem caches_transparent_false :
    ¬Runs.Always (Record.step listenerSetting) (Transparent listenerSetting) .start
      [sampleAnnounce, sealedAnnounce] := by
  intro h
  have hexamine : listenerSetting.examine sampleAnnounce.encrypted sampleAnnounce.data =
      .ok (some (listenerSetting.stampCheck sampleAnnounce.data)) := rfl
  have hvalid := stampCheck_valid_of_zero listenerSetting sampleAnnounce.data rfl (by decide)
  have hfirst := decodeAnnounce_new rfl hexamine hvalid
  have hsecond : (Handler.decodeAnnounce listenerSetting
      (Handler.new.decodeAnnounce listenerSetting sampleAnnounce).1 sealedAnnounce).2 =
        listenerSetting.verdict sealedAnnounce
          (listenerSetting.stampCheck sampleAnnounce.data) := by
    have hadmits : listenerSetting.admits sealedAnnounce = true := by decide
    rw [hfirst]
    exact decodeAnnounce_cached hadmits
  have hfresh := hsecond.symm.trans (second_eq_fresh h)
  have hignored : Handler.fresh listenerSetting sealedAnnounce = .ignored := by
    rw [Handler.fresh_eq]
    rfl
  obtain ⟨info, hreport⟩ := report_listener (listenerSetting.stampCheck sampleAnnounce.data)
  have hcalled : listenerSetting.verdict sealedAnnounce
      (listenerSetting.stampCheck sampleAnnounce.data) = .called info := by
    have hpositive : ¬(listenerSetting.stampCheck sampleAnnounce.data).value <
        listenerSetting.requiredValue := Nat.not_lt_zero _
    rw [Setting.verdict, hvalid, if_neg hpositive]
    exact hreport
  rw [hcalled, hignored] at hfresh
  cases hfresh

end Reticulum.Discovery
