import Reticulum.Transport.Inbound

/-!
# What routing does not read

The choice of a route reads neither the time at which a route was last used nor
the time at which an interface last received something. Most of what a call
writes before it forwards a packet is one of these, so that the routes it
chooses are those of the state before the call.
-/

namespace Reticulum.Transport

/-- A route without the time of its last use. -/
def PathEntry.untimed (e : PathEntry) : PathEntry := { e with timestamp := 0 }

/-- An interface without the time of its last frame. -/
def InterfaceStub.untimed (i : InterfaceStub) : InterfaceStub := { i with lastInboundAt := 0 }

/-- The routes of a path table without their times. -/
def untimedTable (table : Table (List PathEntry)) : Table (List PathEntry) :=
  fun destinationHash => (table destinationHash).map (List.map PathEntry.untimed)

/-- A choice among the entries of a list commutes with a change of the entries that it
does not read. -/
theorem foldl_map_choice {α β : Type*} {choose : Option α → α → Option α}
    {choose' : Option β → β → Option β} (f : α → β)
    (h : ∀ best e, choose' (best.map f) (f e) = (choose best e).map f) (entries : List α) :
    (entries.map f).foldl choose' none = (entries.foldl choose none).map f := by
  rw [List.foldl_map]
  change entries.foldl _ (Option.map f none) = _
  exact List.foldl_hom (Option.map f) h

variable (interfaces : List InterfaceStub)

theorem findInterface_untimed (name : String) :
    findInterface (interfaces.map InterfaceStub.untimed) name =
      (findInterface interfaces name).map InterfaceStub.untimed := by
  unfold findInterface
  rw [List.find?_map]
  rfl

theorem usable_untimed (now : ℚ) (exclude : Option String) (e : PathEntry) :
    usable (interfaces.map InterfaceStub.untimed) now exclude e.untimed =
      usable interfaces now exclude e := by
  have hexpired : e.untimed.isExpired now = e.isExpired now := rfl
  have hvia : e.untimed.receivingInterface = e.receivingInterface := rfl
  unfold usable
  rw [hexpired, hvia]
  cases e.receivingInterface with
  | none => rfl
  | some name =>
      dsimp only
      rw [findInterface_untimed, Option.map_map]
      rfl

theorem betterPath_untimed (best : Option PathEntry) (e : PathEntry) :
    betterPath (interfaces.map InterfaceStub.untimed) (best.map PathEntry.untimed) e.untimed =
      (betterPath interfaces best e).untimed := by
  have hbitrate : ∀ e : PathEntry,
      (e.untimed.receivingInterface.bind
          (findInterface (interfaces.map InterfaceStub.untimed))).bind (·.bitrate) =
        (e.receivingInterface.bind (findInterface interfaces)).bind (·.bitrate) := by
    intro e
    change (e.receivingInterface.bind _).bind _ = _
    cases e.receivingInterface with
    | none => rfl
    | some name =>
        rw [Option.bind_some, Option.bind_some, findInterface_untimed]
        cases findInterface interfaces name <;> rfl
  cases best with
  | none => rfl
  | some b =>
      simp only [betterPath, Option.map_some, hbitrate]
      rw [apply_ite PathEntry.untimed]
      rfl

/-- The route that is chosen is the same without times. -/
theorem selectPathExcluding_untimed (table : Table (List PathEntry))
    (interfaces : List InterfaceStub) (destinationHash : Bytes) (now : ℚ)
    (exclude : Option String) :
    selectPathExcluding (untimedTable table) (interfaces.map InterfaceStub.untimed)
        destinationHash now exclude =
      (selectPathExcluding table interfaces destinationHash now exclude).map
        PathEntry.untimed := by
  unfold selectPathExcluding untimedTable
  cases table destinationHash with
  | none => rfl
  | some entries =>
      have husable : usable (interfaces.map InterfaceStub.untimed) now exclude ∘
          PathEntry.untimed = usable interfaces now exclude := by
        funext e
        exact usable_untimed interfaces now exclude e
      simp only [Option.map_some, Option.bind_some]
      rw [List.filter_map, husable]
      refine foldl_map_choice PathEntry.untimed ?_ _
      intro best e
      rw [betterPath_untimed]
      rfl

theorem minByHops_untimed (entries : List PathEntry) :
    minByHops (entries.map PathEntry.untimed) = (minByHops entries).map PathEntry.untimed := by
  unfold minByHops
  refine foldl_map_choice PathEntry.untimed ?_ entries
  intro best e
  cases best with
  | none => rfl
  | some b =>
      simp only [Option.map_some]
      rw [apply_ite (Option.map PathEntry.untimed)]
      rfl

/-- The route that is chosen is one of the usable ones. -/
theorem usable_of_selectPathExcluding {table : Table (List PathEntry)}
    {interfaces : List InterfaceStub} {destinationHash : Bytes} {now : ℚ} {exclude : Option String}
    {e : PathEntry}
    (h : selectPathExcluding table interfaces destinationHash now exclude = some e) :
    ∃ entries, table destinationHash = some entries ∧ e ∈ entries ∧
      usable interfaces now exclude e = true := by
  have hfold : ∀ (entries : List PathEntry) (best : Option PathEntry),
      entries.foldl (fun best e => some (betterPath interfaces best e)) best = some e →
        e ∈ entries ∨ best = some e := by
    intro entries
    induction entries with
    | nil => exact fun best h => .inr h
    | cons next entries ih =>
        intro best h
        obtain hmem | hbest := ih _ h
        · exact .inl (List.mem_cons_of_mem _ hmem)
        · unfold betterPath at hbest
          cases best with
          | none => exact .inl (by simpa using Or.inl hbest.symm)
          | some b =>
              dsimp only at hbest
              split at hbest
              · exact .inr hbest
              · exact .inl (by simpa using Or.inl hbest.symm)
  unfold selectPathExcluding at h
  obtain ⟨entries, hentries, h⟩ := Option.bind_eq_some_iff.mp h
  obtain hmem | hnone := hfold _ _ h
  · obtain ⟨hmem, husable⟩ := List.mem_filter.mp hmem
    exact ⟨entries, hentries, hmem, husable⟩
  · cases hnone

/-- The route of transit forwarding does not lead back. -/
theorem transitRoute_ne {s : TransportState} {r : Reading} {p : Wire.Packet}
    {destinationHash : Bytes} {name : String}
    (h : (transitRoute s r p destinationHash).2.2 = some name) :
    p.receivingInterface ≠ some name := by
  unfold transitRoute at h
  split at h
  · rename_i e hselect
    obtain ⟨-, -, -, husable⟩ := usable_of_selectPathExcluding hselect
    intro hback
    dsimp only at h
    simp [usable, h, hback] at husable
  · cases h

/-- The interface of the path-table fallback: that of the unexpired route with the
fewest hops. -/
def pathVia (s : TransportState) (r : Reading) (destinationHash : Bytes) : Option String :=
  (minByHops (((s.pathTable destinationHash).getD []).filter fun e =>
    !e.isExpired r.now)).bind (·.receivingInterface)

/-- The routes, the registered destinations, the identities and the control destinations
are the same, but for times. -/
structure SameRoutes (s s' : TransportState) : Prop where
  interfaces : s'.interfaces.map InterfaceStub.untimed = s.interfaces.map InterfaceStub.untimed
  paths : untimedTable s'.pathTable = untimedTable s.pathTable
  identityHash : s'.identityHash = s.identityHash
  destinations : s'.destinations = s.destinations
  knownDestinations : s'.knownDestinations = s.knownDestinations
  controlHashes : s'.controlHashes = s.controlHashes

namespace SameRoutes

variable {s s' s'' : TransportState} {r : Reading} {p : Wire.Packet} {c : Crypto}

theorem refl : SameRoutes s s := ⟨rfl, rfl, rfl, rfl, rfl, rfl⟩

section

variable (h : SameRoutes s s')

include h

theorem trans (h' : SameRoutes s' s'') : SameRoutes s s'' where
  interfaces := h'.interfaces.trans h.interfaces
  paths := h'.paths.trans h.paths
  identityHash := h'.identityHash.trans h.identityHash
  destinations := h'.destinations.trans h.destinations
  knownDestinations := h'.knownDestinations.trans h.knownDestinations
  controlHashes := h'.controlHashes.trans h.controlHashes

theorem findInterface (name : String) :
    (findInterface s'.interfaces name).map InterfaceStub.untimed =
      (findInterface s.interfaces name).map InterfaceStub.untimed := by
  rw [← findInterface_untimed, h.interfaces, findInterface_untimed]

theorem selectPathExcluding (destinationHash : Bytes) (now : ℚ) (exclude : Option String) :
    (selectPathExcluding s'.pathTable s'.interfaces destinationHash now exclude).map
        PathEntry.untimed =
      (selectPathExcluding s.pathTable s.interfaces destinationHash now exclude).map
        PathEntry.untimed := by
  rw [← selectPathExcluding_untimed, h.paths, h.interfaces, selectPathExcluding_untimed]

/-- The route of transit forwarding is the same. -/
theorem transitRoute (destinationHash : Bytes) :
    transitRoute s' r p destinationHash = transitRoute s r p destinationHash := by
  have hselect := h.selectPathExcluding destinationHash r.now p.receivingInterface
  unfold Transport.transitRoute
  cases hnew : Transport.selectPathExcluding s'.pathTable s'.interfaces destinationHash r.now
      p.receivingInterface with
  | none =>
      rw [hnew] at hselect
      rw [Option.map_eq_none_iff.mp hselect.symm]
  | some e =>
      rw [hnew] at hselect
      obtain ⟨e', hold, heq⟩ := Option.map_eq_some_iff.mp hselect.symm
      rw [hold]
      have hfields := congrArg (fun e => (e.nextHop, e.hops, e.receivingInterface)) heq
      exact hfields.symm

theorem contains (destinationHash : Bytes) :
    s'.pathTable.contains destinationHash = s.pathTable.contains destinationHash := by
  have hpath := congrArg Option.isSome (congrFun h.paths destinationHash)
  simpa [untimedTable, Table.contains] using hpath

theorem pathVia (destinationHash : Bytes) :
    pathVia s' r destinationHash = pathVia s r destinationHash := by
  have hvia : ∀ t : TransportState, Transport.pathVia t r destinationHash =
      (minByHops (((untimedTable t.pathTable destinationHash).getD []).filter fun e =>
        !e.isExpired r.now)).bind (·.receivingInterface) := by
    intro t
    have huntimed : (untimedTable t.pathTable destinationHash).getD [] =
        ((t.pathTable destinationHash).getD []).map PathEntry.untimed := by
      unfold untimedTable
      cases t.pathTable destinationHash <;> rfl
    rw [huntimed, List.filter_map, minByHops_untimed, Option.bind_map]
    rfl
  rw [hvia, hvia, h.paths]

end

/-- Noting the time of a frame leaves the routes alone. -/
theorem noteInbound (receivingInterface : Option String) :
    SameRoutes s (noteInbound s r receivingInterface) := by
  refine ⟨?_, rfl, rfl, rfl, rfl, rfl⟩
  dsimp only [Transport.noteInbound]
  split
  · rfl
  · rename_i k _
    apply List.ext_getElem?
    intro j
    rw [List.getElem?_map, List.getElem?_map, List.getElem?_modify]
    by_cases hk : k = j
    · cases s.interfaces[j]? <;> simp [hk, InterfaceStub.untimed]
    · simp [hk]

theorem rememberPacketHash : SameRoutes s (rememberPacketHash s p) := by
  obtain ⟨hashlist, heq⟩ := rememberPacketHash_eq s p
  rw [heq]
  exact ⟨rfl, rfl, rfl, rfl, rfl, rfl⟩

/-- A path table whose routes for one destination are the same but for times. -/
theorem of_insert {destinationHash : Bytes} {routes : List PathEntry}
    (hroutes : (s.pathTable destinationHash).map (List.map PathEntry.untimed) =
      some (routes.map PathEntry.untimed)) :
    SameRoutes s { s with pathTable := s.pathTable.insert destinationHash routes } := by
  refine ⟨rfl, ?_, rfl, rfl, rfl, rfl⟩
  funext other
  change (s.pathTable.insert destinationHash routes other).map _ = (s.pathTable other).map _
  by_cases hother : other = destinationHash
  · subst hother
    rw [Table.insert_self, hroutes]
    rfl
  · rw [Table.insert_of_ne _ hother]

end SameRoutes

end Reticulum.Transport
