import Reticulum.Lib.FirstMatch
import Reticulum.Transport.OutboundRoutes

/-!
# The routes that a call changes

`Transport::outbound` shortens the expiry of the stale routes that it tries, and
`Transport::inbound` refreshes a route along which it forwards (`src/transport.rs`). The
entries are found again in the path table by the hash of their announce, at the front, or
not at all, so that other routes to the destination may be changed in their place
(`routeUse_iff`).

## Implementation notes

A route is its position among the routes to its destination. The functions that choose a
route keep the position here, as those of the source do.
-/

namespace Reticulum.Transport

/-! ## Positions -/

/-- `Transport::select_all_paths`, with the positions. -/
def selectAllIndices (table : Table (List PathEntry)) (interfaces : List InterfaceStub)
    (destinationHash : Bytes) (now : ℚ) : List (PathEntry × Nat) :=
  (((table destinationHash).getD []).zipIdx.filter fun e =>
    usable interfaces now none e.1).mergeSort
      fun a b => routeScore interfaces b.1 ≤ routeScore interfaces a.1

/-- `Transport::select_path_excluding`, with the position. -/
def selectIndexExcluding (table : Table (List PathEntry)) (interfaces : List InterfaceStub)
    (destinationHash : Bytes) (now : ℚ) (exclude : Option String) : Option (PathEntry × Nat) :=
  ((table destinationHash).getD []).zipIdx.filter (fun e => usable interfaces now exclude e.1)
    |>.foldl (fun best e =>
      match best with
      | none => some e
      | some b =>
          if routeScore interfaces e.1 ≤ routeScore interfaces b.1 then some b else some e) none

/-- The route of the path-table fallback, with its position. -/
def fallbackIndex (s : TransportState) (r : Reading) (destinationHash : Bytes) :
    Option (PathEntry × Nat) :=
  ((s.pathTable destinationHash).getD []).zipIdx.filter (fun e => !e.1.isExpired r.now)
    |>.foldl (fun best e =>
      match best with
      | none => some e
      | some b => if e.1.hops < b.1.hops then some e else some b) none

/-- The entries up to the first that settles a search, with that entry. -/
def upTo {α : Type*} (p : α → Bool) : List α → List α
  | [] => []
  | a :: l => if p a then [a] else a :: upTo p l

/-- The stale routes among those that `Transport::outbound` tries. -/
def staleTried (s : TransportState) (r : Reading) (destinationHash : Bytes) :
    List (PathEntry × Nat) :=
  (upTo (fun e => settles s.interfaces r e.1)
    (selectAllIndices s.pathTable s.interfaces destinationHash r.now)).filter
      fun e => isStale r e.1

/-! ## What a call may change -/

/-- The expiry of a stale route, never a later one. -/
def shorten (r : Reading) (e : PathEntry) : PathEntry :=
  { e with expires := min e.expires (r.now + pathStaleThreshold) }

/-- A route that was used now. -/
def refresh (r : Reading) (e : PathEntry) : PathEntry := { e with timestamp := r.now }

/-- The used routes are changed, and no other route. -/
structure ChangesOnly (change : PathEntry → PathEntry) (used : Nat → Prop) (destinationHash : Bytes)
    (table table' : Table (List PathEntry)) : Prop where
  length : ((table' destinationHash).getD []).length = ((table destinationHash).getD []).length
  changed : ∀ k e, ((table destinationHash).getD [])[k]? = some e → used k →
    ((table' destinationHash).getD [])[k]? = some (change e)
  kept : ∀ k e, ((table destinationHash).getD [])[k]? = some e → ¬used k →
    ((table' destinationHash).getD [])[k]? = some e
  elsewhere : ∀ hash, hash ≠ destinationHash → table' hash = table hash

namespace ChangesOnly

variable {change : PathEntry → PathEntry} {used touched : Nat → Prop} {destinationHash : Bytes}
  {table table' table'' : Table (List PathEntry)}

/-- What is touched is what is used, but for routes on which the change shows nothing. -/
theorem iff_touched (h : ChangesOnly change touched destinationHash table table') :
    ChangesOnly change used destinationHash table table' ↔
      ∀ k e, ((table destinationHash).getD [])[k]? = some e → change e ≠ e →
        (used k ↔ touched k) := by
  constructor
  · intro hused k e hk hshows
    constructor
    · intro hu
      by_contra ht
      exact hshows (Option.some.inj ((hused.changed k e hk hu).symm.trans (h.kept k e hk ht)))
    · intro ht
      by_contra hu
      exact hshows (Option.some.inj ((h.changed k e hk ht).symm.trans (hused.kept k e hk hu)))
  · intro hiff
    refine ⟨h.length, fun k e hk hu => ?_, fun k e hk hu => ?_, h.elsewhere⟩
    · by_cases hshows : change e = e
      · by_cases ht : touched k
        · exact h.changed k e hk ht
        · rw [hshows]
          exact h.kept k e hk ht
      · exact h.changed k e hk ((hiff k e hk hshows).mp hu)
    · by_cases hshows : change e = e
      · by_cases ht : touched k
        · rw [← hshows]
          exact h.changed k e hk ht
        · exact h.kept k e hk ht
      · exact h.kept k e hk fun ht => hu ((hiff k e hk hshows).mpr ht)

/-- Two calls one after the other. -/
theorem trans (hchange : ∀ e, change (change e) = change e)
    (h : ChangesOnly change used destinationHash table table')
    (h' : ChangesOnly change touched destinationHash table' table'') :
    ChangesOnly change (fun k => used k ∨ touched k) destinationHash table table'' where
  length := h'.length.trans h.length
  changed := by
    intro k e hk hor
    by_cases hu : used k
    · have hfirst := h.changed k e hk hu
      by_cases ht : touched k
      · rw [h'.changed k _ hfirst ht, hchange]
      · exact h'.kept k _ hfirst ht
    · exact h'.changed k e (h.kept k e hk hu) (hor.resolve_left hu)
  kept := by
    intro k e hk hor
    obtain ⟨hu, ht⟩ := not_or.mp hor
    exact h'.kept k e (h.kept k e hk hu) ht
  elsewhere := fun hash hne => (h'.elsewhere hash hne).trans (h.elsewhere hash hne)

theorem refl : ChangesOnly change (fun _ => False) destinationHash table table :=
  ⟨rfl, fun _ _ _ h => h.elim, fun _ _ h _ => h, fun _ _ => rfl⟩

theorem congr (h : ChangesOnly change used destinationHash table table')
    (hiff : ∀ k, used k ↔ touched k) : ChangesOnly change touched destinationHash table table' :=
  h.iff_touched.mpr fun k _ _ _ => (hiff k).symm

end ChangesOnly

/-! ## The expiry of stale routes -/

section Outbound

variable {s : TransportState} {r : Reading} {p : Wire.Packet} {destinationHash : Bytes}

theorem shorten_eq_self {e : PathEntry} :
    shorten r e = e ↔ e.expires ≤ r.now + pathStaleThreshold := by
  constructor
  · intro h
    have hexpires := congrArg PathEntry.expires h
    exact min_eq_left_iff.mp hexpires
  · intro h
    unfold shorten
    rw [min_eq_left h]

theorem shorten_shorten (e : PathEntry) : shorten r (shorten r e) = shorten r e := by
  rw [shorten_eq_self]
  exact min_le_right _ _

/-- Changing one entry, in terms of what is there. -/
theorem modify_congr {routes : List PathEntry} {k : Nat} {change change' : PathEntry → PathEntry}
    (h : ∀ e, routes[k]? = some e → change e = change' e) :
    routes.modify k change = routes.modify k change' := by
  apply List.ext_getElem?
  intro j
  rw [List.getElem?_modify, List.getElem?_modify]
  cases hj : routes[j]? with
  | none => rfl
  | some e =>
      by_cases hk : k = j
      · subst hk
        simp [h e hj]
      · simp [hk]

/-- The first route with the hash of the announce is shortened. -/
theorem routes_shortenExpiry (s : TransportState) (r : Reading) (destinationHash : Bytes)
    (e : PathEntry) :
    ((shortenExpiry s r destinationHash e).pathTable destinationHash).getD [] =
      FirstMatch.update (fun other => other.packetHash == e.packetHash) (shorten r)
        ((s.pathTable destinationHash).getD []) := by
  unfold shortenExpiry
  dsimp only
  cases hfind : ((s.pathTable destinationHash).getD []).findIdx? fun other =>
      other.packetHash == e.packetHash with
  | none => exact (FirstMatch.update_eq_self hfind).symm
  | some k =>
      dsimp only
      rw [← FirstMatch.modify_eq_update hfind]
      obtain ⟨hk, -⟩ := List.findIdx?_eq_some_iff_getElem.mp hfind
      rw [List.getElem?_eq_getElem hk, Option.any_some]
      split
      · rename_i hlater
        rw [decide_eq_true_eq] at hlater
        change ((s.pathTable.insert destinationHash _) destinationHash).getD [] = _
        rw [Table.insert_self, Option.getD_some]
        refine modify_congr fun e' he' => ?_
        obtain rfl := Option.some.inj ((List.getElem?_eq_getElem hk).symm.trans he')
        unfold shorten
        rw [min_eq_right hlater.le]
      · rename_i hsooner
        rw [decide_eq_true_eq, not_lt] at hsooner
        have hid : ∀ e', ((s.pathTable destinationHash).getD [])[k]? = some e' →
            id e' = shorten r e' := by
          intro e' he'
          obtain rfl := Option.some.inj ((List.getElem?_eq_getElem hk).symm.trans he')
          exact (shorten_eq_self.mpr hsooner).symm
        rw [← modify_congr hid, List.modify_id]

/-- The position at which a route is found again. -/
def foundAt (table : Table (List PathEntry)) (destinationHash : Bytes) (e : PathEntry) :
    Option Nat :=
  ((table destinationHash).getD []).findIdx? fun other => other.packetHash == e.packetHash

theorem changes_shortenExpiry (s : TransportState) (r : Reading) (destinationHash : Bytes)
    (e : PathEntry) :
    ChangesOnly (shorten r) (fun k => foundAt s.pathTable destinationHash e = some k)
      destinationHash s.pathTable (shortenExpiry s r destinationHash e).pathTable where
  length := by rw [routes_shortenExpiry, FirstMatch.length_update]
  changed := by
    intro k e' hk hfound
    unfold foundAt at hfound
    rw [routes_shortenExpiry, FirstMatch.getElem?_update, if_pos hfound, hk, Option.map_some]
  kept := by
    intro k e' hk hfound
    unfold foundAt at hfound
    rw [routes_shortenExpiry, FirstMatch.getElem?_update, if_neg hfound, hk]
  elsewhere := by
    intro hash hne
    unfold shortenExpiry
    dsimp only
    split
    · rfl
    · split
      · exact Table.insert_of_ne _ hne _
      · rfl

theorem foundAt_shortenExpiry (e e' : PathEntry) :
    foundAt (shortenExpiry s r destinationHash e).pathTable destinationHash e' =
      foundAt s.pathTable destinationHash e' := by
  unfold foundAt
  rw [routes_shortenExpiry, FirstMatch.findIdx?_update]
  exact fun _ => rfl

/-- The routes that are tried are shortened where they are found again. -/
theorem changes_sendAlong (s : TransportState) (routes : List PathEntry) :
    ChangesOnly (shorten r)
      (fun k => ∃ e ∈ (upTo (settles s.interfaces r) routes).filter (isStale r),
        foundAt s.pathTable destinationHash e = some k)
      destinationHash s.pathTable (sendAlong r p destinationHash s routes).1.pathTable := by
  induction routes generalizing s with
  | nil => exact ChangesOnly.refl.congr (by simp [upTo])
  | cons e routes ih =>
      have hrest := ih (shortenExpiry s r destinationHash e)
      have hstale : (2 ≤ e.hops ∧ pathStaleThreshold < r.now - e.timestamp) ↔
          isStale r e = true := by
        simp [isStale]
      unfold sendAlong
      dsimp only
      by_cases hfresh : isStale r e = true
      · rw [if_pos (hstale.mpr hfresh)]
        have hone := changes_shortenExpiry s r destinationHash e
        cases hout : e.receivingInterface.bind (findInterface s.interfaces) with
        | none =>
            have hsettles : settles s.interfaces r e = false := by simp [settles, hfresh, hout]
            refine (hone.trans shorten_shorten hrest).congr fun k => ?_
            rw [(interfaces_shortenExpiry s r destinationHash e).1]
            simp [upTo, hsettles, hfresh, foundAt_shortenExpiry]
        | some out =>
            have hsettles : settles s.interfaces r e = true := by simp [settles, hout]
            refine hone.congr fun k => ?_
            simp [upTo, hsettles, hfresh]
      · have hsettles : settles s.interfaces r e = true := by simp [settles, hfresh]
        rw [if_neg (hstale.not.mpr hfresh)]
        refine ChangesOnly.refl.congr fun k => ?_
        simp [upTo, hsettles, hfresh]

end Outbound

/-! ## The positions are those of the routes -/

section Positions

variable {α β : Type*}

theorem map_upTo (f : α → β) (p : β → Bool) (l : List α) :
    (upTo (p ∘ f) l).map f = upTo p (l.map f) := by
  induction l with
  | nil => rfl
  | cons a l ih =>
      rw [List.map_cons, upTo, upTo]
      cases h : p (f a) with
      | true => simp [h]
      | false => simp [h, ih]

/-- Entries that are chosen with their positions. -/
theorem map_fst_filter (l : List α) (p : α → Bool) :
    (l.zipIdx.filter fun e => p e.1).map Prod.fst = l.filter p := by
  have h := List.filter_map (f := (Prod.fst : α × Nat → α)) (p := p) (l := l.zipIdx)
  rw [List.zipIdx_map_fst] at h
  exact h.symm

theorem map_selectAllIndices (table : Table (List PathEntry)) (interfaces : List InterfaceStub)
    (destinationHash : Bytes) (now : ℚ) :
    (selectAllIndices table interfaces destinationHash now).map Prod.fst =
      selectAllPaths table interfaces destinationHash now := by
  unfold selectAllIndices
  rw [List.map_mergeSort (s := fun a b => routeScore interfaces b ≤ routeScore interfaces a)
    (fun _ _ _ _ => rfl), map_fst_filter]
  rfl

theorem map_staleTried (s : TransportState) (r : Reading) (destinationHash : Bytes) :
    (staleTried s r destinationHash).map Prod.fst =
      (upTo (settles s.interfaces r)
        (selectAllPaths s.pathTable s.interfaces destinationHash r.now)).filter (isStale r) := by
  rw [← map_selectAllIndices, ← map_upTo, List.filter_map]
  rfl

theorem map_selectIndexExcluding (table : Table (List PathEntry)) (interfaces : List InterfaceStub)
    (destinationHash : Bytes) (now : ℚ) (exclude : Option String) :
    (selectIndexExcluding table interfaces destinationHash now exclude).map Prod.fst =
      selectPathExcluding table interfaces destinationHash now exclude := by
  have hpath : selectPathExcluding table interfaces destinationHash now exclude =
      (((table destinationHash).getD []).filter (usable interfaces now exclude)).foldl
        (fun best e => some (betterPath interfaces best e)) none := by
    unfold selectPathExcluding
    cases table destinationHash <;> rfl
  rw [hpath, ← map_fst_filter]
  unfold selectIndexExcluding
  refine (foldl_map_choice Prod.fst (fun best e => ?_) _).symm
  cases best with
  | none => rfl
  | some b =>
      change some (if routeScore interfaces e.1 ≤ routeScore interfaces b.1 then b.1 else e.1) =
        Option.map Prod.fst
          (if routeScore interfaces e.1 ≤ routeScore interfaces b.1 then some b else some e)
      split <;> rfl

theorem map_fallbackIndex (s : TransportState) (r : Reading) (destinationHash : Bytes) :
    (fallbackIndex s r destinationHash).map Prod.fst =
      minByHops (((s.pathTable destinationHash).getD []).filter fun e => !e.isExpired r.now) := by
  rw [← map_fst_filter (p := fun e : PathEntry => !e.isExpired r.now)]
  unfold fallbackIndex minByHops
  refine (foldl_map_choice Prod.fst (fun best e => ?_) _).symm
  cases best with
  | none => rfl
  | some b =>
      dsimp only [Option.map_some]
      split <;> rfl

end Positions

/-- The stale routes that `Transport::outbound` tries are shortened where they are found
again. -/
theorem changes_outbound (s : TransportState) (r : Reading) (p : Wire.Packet)
    (destinationHash : Bytes) :
    ChangesOnly (shorten r)
      (fun k => ∃ u ∈ staleTried s r destinationHash,
        foundAt s.pathTable destinationHash u.1 = some k)
      destinationHash s.pathTable (outbound s r p destinationHash).1.pathTable := by
  refine (changes_sendAlong s _).congr fun k => ?_
  rw [← map_staleTried]
  simp only [List.mem_map, exists_exists_and_eq_and]

/-! ## The times of routes -/

section Inbound

variable {c : Crypto} {s : TransportState} {r : Reading} {p : Wire.Packet}
  {destinationHash : Bytes}

theorem refresh_eq_self {e : PathEntry} : refresh r e = e ↔ e.timestamp = r.now := by
  constructor
  · intro h
    exact (congrArg PathEntry.timestamp h).symm
  · intro h
    unfold refresh
    rw [← h]

/-- A frame of transit forwarding goes along the selected route. -/
theorem exists_index_of_transit (hdest : p.destinationHash = some destinationHash)
    (hsent : (transit c s r p).2 ≠ []) :
    ∃ e k name, selectIndexExcluding s.pathTable s.interfaces destinationHash r.now
        p.receivingInterface = some (e, k) ∧ e.receivingInterface = some name ∧
      (transit c s r p).2 = [(name, transitFrame s p e.nextHop e.hops (some name))] ∧
      (transit c s r p).1 = noteTransit c s r p destinationHash e.nextHop e.hops (some name) := by
  unfold transit at hsent ⊢
  split at hsent
  · rename_i haddressed
    rw [hdest] at hsent ⊢
    dsimp only at hsent ⊢
    rw [if_pos haddressed]
    cases hselect : selectIndexExcluding s.pathTable s.interfaces destinationHash r.now
        p.receivingInterface with
    | none =>
        have hpath := map_selectIndexExcluding s.pathTable s.interfaces destinationHash r.now
          p.receivingInterface
        rw [hselect, Option.map_none] at hpath
        have hroute : transitRoute s r p destinationHash = ([], 0, none) := by
          unfold transitRoute
          rw [← hpath]
        rw [hroute] at hsent
        split at hsent
        · exact absurd rfl hsent
        · exact absurd rfl hsent
    | some entry =>
        have hpath := map_selectIndexExcluding s.pathTable s.interfaces destinationHash r.now
          p.receivingInterface
        rw [hselect, Option.map_some] at hpath
        have hroute : transitRoute s r p destinationHash =
            (entry.1.nextHop, entry.1.hops, entry.1.receivingInterface) := by
          unfold transitRoute
          rw [← hpath]
        rw [hroute] at hsent ⊢
        split at hsent
        · rename_i hknown
          rw [if_pos hknown]
          cases hvia : entry.1.receivingInterface with
          | none =>
              rw [hvia] at hsent
              exact absurd rfl hsent
          | some name => exact ⟨entry.1, entry.2, name, rfl, hvia, rfl, rfl⟩
        · exact absurd rfl hsent
  · exact absurd rfl hsent

/-- Transit forwarding refreshes the first route. -/
theorem changes_noteTransit (nextHop : Bytes) (remainingHops : UInt8) (outbound : Option String) :
    ChangesOnly (refresh r) (fun k => k = 0) destinationHash s.pathTable
      (noteTransit c s r p destinationHash nextHop remainingHops outbound).pathTable := by
  unfold noteTransit
  dsimp only
  split
  · rename_i front routes hentries
    have hold : (s.pathTable destinationHash).getD [] = front :: routes := by rw [hentries]; rfl
    have hnew : ((s.pathTable.insert destinationHash
        ({ front with timestamp := r.now } :: routes)) destinationHash).getD [] =
          refresh r front :: routes := by
      rw [Table.insert_self]
      rfl
    refine ⟨by rw [hold, hnew]; rfl, fun k e hk h => ?_, fun k e hk h => ?_,
      fun hash hne => Table.insert_of_ne _ hne _⟩
    · subst h
      rw [hold] at hk
      rw [hnew]
      exact congrArg (Option.map (refresh r)) hk
    · obtain ⟨j, rfl⟩ := Nat.exists_eq_succ_of_ne_zero h
      rw [hold] at hk
      rw [hnew]
      exact hk
  · rename_i hempty
    have hold : (s.pathTable destinationHash).getD [] = [] := by
      cases hentries : s.pathTable destinationHash with
      | none => rfl
      | some routes =>
          cases routes with
          | nil => rfl
          | cons front routes => exact absurd hentries (hempty front routes)
    refine ⟨rfl, fun k e hk => ?_, fun k e hk => ?_, fun _ _ => rfl⟩
    · rw [hold] at hk
      cases hk
    · rw [hold] at hk
      cases hk

/-- Every route is refreshed. -/
theorem changes_refreshAll (table : Table (List PathEntry)) (r : Reading)
    (destinationHash : Bytes) :
    ChangesOnly (refresh r) (fun _ => True) destinationHash table
      (table.insert destinationHash (((table destinationHash).getD []).map (refresh r))) where
  length := by rw [Table.insert_self, Option.getD_some, List.length_map]
  changed := by
    intro k e hk _
    rw [Table.insert_self, Option.getD_some, List.getElem?_map, hk, Option.map_some]
  kept := fun _ _ _ h => absurd True.intro h
  elsewhere := fun _ hne => Table.insert_of_ne _ hne _

/-- A frame of the path-table fallback for data goes along the selected route, and every route
is refreshed. -/
theorem exists_index_of_handleData (hdest : p.destinationHash = some destinationHash)
    (hsent : (handleData s r p).2.1 ≠ []) :
    ∃ e k name, fallbackIndex s r destinationHash = some (e, k) ∧
      e.receivingInterface = some name ∧
      (handleData s r p).2.1 = [(name, setHops p.raw p.hops)] ∧
      ChangesOnly (refresh r) (fun _ => True) destinationHash s.pathTable
        (handleData s r p).1.pathTable := by
  unfold handleData at hsent ⊢
  split at hsent
  · rename_i hdata
    rw [if_pos hdata]
    split at hsent
    · exact absurd rfl hsent
    · rename_i hlink
      rw [hdest] at hsent ⊢
      dsimp only at hsent ⊢
      rw [if_neg hlink]
      split at hsent
      · rename_i hlocal
        rw [if_pos hlocal]
        have hpath := map_fallbackIndex s r destinationHash
        have hframes : fallback s r p destinationHash =
            (((fallbackIndex s r destinationHash).map Prod.fst).bind
              (·.receivingInterface)).toList.map fun name => (name, setHops p.raw p.hops) := by
          rw [hpath]
          rfl
        cases hindex : fallbackIndex s r destinationHash with
        | none =>
            rw [hframes, hindex] at hsent
            exact absurd rfl hsent
        | some entry =>
            cases hvia : entry.1.receivingInterface with
            | none =>
                rw [hframes, hindex, Option.map_some, Option.bind_some, hvia] at hsent
                exact absurd rfl hsent
            | some name =>
                rw [hframes, hindex, Option.map_some, Option.bind_some, hvia]
                exact ⟨entry.1, entry.2, name, rfl, hvia, rfl,
                  changes_refreshAll s.pathTable r destinationHash⟩
      · exact absurd rfl hsent
  · exact absurd rfl hsent

end Inbound

/-- The calls change the routes that they use and no other if and only if: every stale route
that is tried is the one that is found again, the selected route of transit forwarding is the
first, and the route of the fallback is the only one; but for routes that expire that soon, or
were refreshed at that time. -/
theorem routeUse_iff (c : Crypto) (s : TransportState) (r : Reading) (p : Wire.Packet)
    (destinationHash : Bytes) :
    (ChangesOnly (shorten r) (fun k => ∃ e, (e, k) ∈ staleTried s r destinationHash)
          destinationHash s.pathTable (outbound s r p destinationHash).1.pathTable ↔
        ∀ k e, ((s.pathTable destinationHash).getD [])[k]? = some e →
          r.now + pathStaleThreshold < e.expires →
          ((∃ e, (e, k) ∈ staleTried s r destinationHash) ↔
            ∃ u ∈ staleTried s r destinationHash,
              foundAt s.pathTable destinationHash u.1 = some k)) ∧
    (p.destinationHash = some destinationHash → (transit c s r p).2 ≠ [] →
      ∃ e k name, selectIndexExcluding s.pathTable s.interfaces destinationHash r.now
          p.receivingInterface = some (e, k) ∧
        (transit c s r p).2 = [(name, transitFrame s p e.nextHop e.hops (some name))] ∧
        (ChangesOnly (refresh r) (fun j => j = k) destinationHash s.pathTable
            (transit c s r p).1.pathTable ↔
          k = 0 ∨ ∀ j e', ((s.pathTable destinationHash).getD [])[j]? = some e' →
            j = 0 ∨ j = k → e'.timestamp = r.now)) ∧
    (p.destinationHash = some destinationHash → (handleData s r p).2.1 ≠ [] →
      ∃ e k name, fallbackIndex s r destinationHash = some (e, k) ∧
        (handleData s r p).2.1 = [(name, setHops p.raw p.hops)] ∧
        (ChangesOnly (refresh r) (fun j => j = k) destinationHash s.pathTable
            (handleData s r p).1.pathTable ↔
          ∀ j e', ((s.pathTable destinationHash).getD [])[j]? = some e' →
            j ≠ k → e'.timestamp = r.now)) := by
  refine ⟨?_, fun hdest hsent => ?_, fun hdest hsent => ?_⟩
  · rw [(changes_outbound s r p destinationHash).iff_touched]
    simp only [ne_eq, shorten_eq_self, not_le]
  · obtain ⟨e, k, name, hindex, -, hframes, hstate⟩ := exists_index_of_transit hdest hsent
    refine ⟨e, k, name, hindex, hframes, ?_⟩
    rw [hstate, (changes_noteTransit _ _ _).iff_touched]
    constructor
    · intro h
      by_cases hfirst : k = 0
      · exact .inl hfirst
      · refine .inr fun j e' hj hor => ?_
        by_contra hearlier
        have hiff := h j e' hj (refresh_eq_self.not.mpr hearlier)
        obtain rfl | rfl := hor
        · exact hfirst (hiff.mpr rfl).symm
        · exact hfirst (hiff.mp rfl)
    · rintro (rfl | h) j e' hj hshows
      · exact Iff.rfl
      · have hearlier := refresh_eq_self.not.mp hshows
        exact iff_of_false (fun hjk => hearlier (h j e' hj (.inr hjk)))
          fun hzero => hearlier (h j e' hj (.inl hzero))
  · obtain ⟨e, k, name, hindex, -, hframes, hcode⟩ := exists_index_of_handleData hdest hsent
    refine ⟨e, k, name, hindex, hframes, ?_⟩
    rw [hcode.iff_touched]
    constructor
    · intro h j e' hj hother
      by_contra hearlier
      exact hother ((h j e' hj (refresh_eq_self.not.mpr hearlier)).mpr True.intro)
    · intro h j e' hj hshows
      refine iff_of_true ?_ True.intro
      by_contra hother
      exact hshows (refresh_eq_self.mpr (h j e' hj hother))

section Samples

/-- A route that is kept for long. -/
def longPath (hops : UInt8) (receivingInterface : Option String) : PathEntry :=
  { routedPath hops receivingInterface with expires := 1000 }

/-- A time at which a route of the time 0 is stale. -/
def staleReading : Reading := { Reading.zero with now := 100 }

/-- A packet for the destination of the routes that came in on the left. -/
def transitPacket (packetType : UInt8) : Wire.Packet :=
  { routedPacket with
    packetType := packetType, transportId := some (List.replicate 16 9)
    receivingInterface := some "left" }

/-- A route whose interface is gone, from an announce with this hash, and a usable one behind it. -/
def behindDead (packetHash : Bytes) : TransportState :=
  routedState [{ longPath 2 (some "gone") with packetHash := packetHash },
    longPath 2 (some "right")]

/-- The only usable route of the sample is the second. -/
theorem staleTried_sample (packetHash : Bytes) (h : packetHash ∈ [[], [1]]) :
    staleTried (behindDead packetHash) staleReading (List.replicate 16 0) =
      [(longPath 2 (some "right"), 1)] := by
  have husable : ((((behindDead packetHash).pathTable (List.replicate 16 0)).getD
      []).zipIdx.filter fun e => usable sampleRelay.interfaces 100 none e.1) =
        [(longPath 2 (some "right"), 1)] := by
    revert packetHash
    decide +kernel
  have hindices : selectAllIndices (behindDead packetHash).pathTable sampleRelay.interfaces
      (List.replicate 16 0) 100 = [(longPath 2 (some "right"), 1)] := by
    unfold selectAllIndices
    rw [husable]
    exact List.mergeSort_singleton _
  unfold staleTried
  change (upTo (fun e => settles sampleRelay.interfaces staleReading e.1)
    (selectAllIndices _ sampleRelay.interfaces (List.replicate 16 0) 100)).filter _ = _
  rw [hindices]
  decide +kernel

/-- A route that was refreshed a moment ago, and a shorter one behind it. -/
def behindLonger : TransportState :=
  routedState [{ longPath 2 (some "left") with timestamp := 100 }, longPath 1 (some "right")]

/-- A packet of this node shortens the stale route behind the dead one, and the fallback refreshes
the shorter route behind the other. -/
theorem routeUse_iff_behind :
    ChangesOnly (shorten staleReading)
        (fun k => ∃ e, (e, k) ∈ staleTried (behindDead [1]) staleReading (List.replicate 16 0))
        (List.replicate 16 0) (behindDead [1]).pathTable
        (outbound (behindDead [1]) staleReading routedPacket (List.replicate 16 0)).1.pathTable ∧
      ChangesOnly (refresh staleReading) (fun j => j = 1) (List.replicate 16 0)
        behindLonger.pathTable
        (handleData behindLonger staleReading (transitPacket Wire.data)).1.pathTable := by
  constructor
  · refine (routeUse_iff (Link.sampleCrypto []) (behindDead [1]) staleReading routedPacket
      (List.replicate 16 0)).1.mpr fun k e _ _ => ?_
    have hfound : foundAt (behindDead [1]).pathTable (List.replicate 16 0)
        (longPath 2 (some "right")) = some 1 := by decide +kernel
    rw [staleTried_sample [1] (by decide)]
    simp only [List.mem_singleton, Prod.mk.injEq, exists_eq_left, hfound, Option.some.injEq]
    exact eq_comm
  · obtain ⟨e, k, name, hindex, -, hiff⟩ := (routeUse_iff (Link.sampleCrypto []) behindLonger
      staleReading (transitPacket Wire.data) (List.replicate 16 0)).2.2 rfl (by decide +kernel)
    have hselected : fallbackIndex behindLonger staleReading (List.replicate 16 0) =
        some (longPath 1 (some "right"), 1) := by decide +kernel
    obtain ⟨-, rfl⟩ := Prod.mk.inj (Option.some.inj (hselected.symm.trans hindex))
    refine hiff.mpr ?_
    rintro (_ | _ | j) e' hj hother
    · obtain rfl := Option.some.inj hj
      rfl
    · exact absurd rfl hother
    · cases hj

/-- A copy of the announce is shortened in the place of the route, the first route is refreshed
in the place of the selected one, and a route of the fallback keeps the others alive. -/
theorem routeUse_false :
    (¬∀ (s : TransportState) (r : Reading) (p : Wire.Packet) (destinationHash : Bytes),
      ChangesOnly (shorten r) (fun k => ∃ e, (e, k) ∈ staleTried s r destinationHash)
        destinationHash s.pathTable (outbound s r p destinationHash).1.pathTable) ∧
    (¬∀ (c : Crypto) (s : TransportState) (r : Reading) (p : Wire.Packet) (destinationHash : Bytes)
      (e : PathEntry) (k : Nat), p.destinationHash = some destinationHash →
      (transit c s r p).2 ≠ [] →
      selectIndexExcluding s.pathTable s.interfaces destinationHash r.now p.receivingInterface =
        some (e, k) →
      ChangesOnly (refresh r) (fun j => j = k) destinationHash s.pathTable
        (transit c s r p).1.pathTable) ∧
    ¬∀ (s : TransportState) (r : Reading) (p : Wire.Packet) (destinationHash : Bytes)
      (e : PathEntry) (k : Nat), p.destinationHash = some destinationHash →
      (handleData s r p).2.1 ≠ [] → fallbackIndex s r destinationHash = some (e, k) →
      ChangesOnly (refresh r) (fun j => j = k) destinationHash s.pathTable
        (handleData s r p).1.pathTable := by
  refine ⟨fun h => ?_, fun h => ?_, fun h => ?_⟩
  · have honly := h (behindDead []) staleReading routedPacket (List.replicate 16 0)
    have hcode := changes_outbound (behindDead []) staleReading routedPacket (List.replicate 16 0)
    have htried := staleTried_sample [] (by decide)
    rw [htried] at hcode
    obtain ⟨e, he, hfound⟩ := (hcode.iff_touched.mp honly 1 (longPath 2 (some "right")) rfl
      (by decide +kernel)).mp ⟨_, by rw [htried]; exact List.mem_singleton_self _⟩
    obtain rfl := List.mem_singleton.mp he
    revert hfound
    decide +kernel
  · have honly := h (Link.sampleCrypto [])
      (routedState [longPath 2 (some "left"), longPath 2 (some "right")]) staleReading
      (transitPacket Wire.linkRequest) (List.replicate 16 0) (longPath 2 (some "right")) 1 rfl
      (by decide +kernel) (by decide +kernel)
    have hfirst := honly.kept 0 (longPath 2 (some "left")) rfl (by decide)
    revert hfirst
    decide +kernel
  · have honly := h (routedState [longPath 2 (some "left"), longPath 1 (some "right")])
      staleReading (transitPacket Wire.data) (List.replicate 16 0) (longPath 1 (some "right")) 1 rfl
      (by decide +kernel) (by decide +kernel)
    have hfirst := honly.kept 0 (longPath 2 (some "left")) rfl (by decide)
    revert hfirst
    decide +kernel

end Samples

end Reticulum.Transport
