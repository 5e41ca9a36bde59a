import Mathlib.Order.OrderDual
import Reticulum.Lib.FirstMin
import Reticulum.Transport.Relayed

/-!
# The route that a packet of this node takes

`Transport::outbound` for a packet with a route (`src/transport.rs`): the routes are tried
in the order of `select_all_paths`, and the frames for interfaces that are offline are left
out. The first of these routes is the one of `select_path` (`head?_selectAllPaths`). A fresh
route without an interface ends the search, so that a packet may stay here although another
route could carry it (`outboundRouted_iff`).

## Implementation notes

The call is one step. A packet without any route is sent on every interface; that branch is
left out here.
-/

namespace Reticulum.Transport

/-- `destination_hash` of `Transport::outbound`. -/
def outboundHash (p : Wire.Packet) : Option Bytes :=
  p.destinationHash.or (p.destination.map (·.hash))

def pathRoutable (p : Wire.Packet) : Bool :=
  p.packetType ≠ Wire.announce && p.destinationType ≠ some .plain &&
    p.destinationType ≠ some .group && (outboundHash p).isSome

/-- The frames whose interface is online. -/
def onlineFrames (s : TransportState) (frames : List (String × Bytes)) : List (String × Bytes) :=
  frames.filter fun frame =>
    match findInterface s.interfaces frame.1 with
    | some i => i.online
    | none => (findInterface s.localClientInterfaces frame.1).any (·.online)

/-- What a call of `Transport::outbound` does: the frames that it transmits, the path requests
that it makes, and the value that it returns. -/
structure OutboundCall where
  state : TransportState
  transmissions : List (String × Bytes)
  requests : List (Bytes × Option String)
  sent : Bool

/-- `Transport::outbound` of a packet that has a route. -/
def outboundRouted (s : TransportState) (r : Reading) (p : Wire.Packet) : Option OutboundCall :=
  match outboundHash p with
  | none => none
  | some destinationHash =>
      if pathRoutable p && !(selectAllPaths s.pathTable s.interfaces destinationHash r.now).isEmpty
      then
        let (state, frames, requests) := outbound s r p destinationHash
        let transmissions := onlineFrames state frames
        some
          { state := state, transmissions := transmissions, requests := requests
            sent := !transmissions.isEmpty }
      else none

/-- A route of more than one hop that was not refreshed for too long. -/
def isStale (r : Reading) (e : PathEntry) : Bool :=
  2 ≤ e.hops && pathStaleThreshold < r.now - e.timestamp

/-- One frame is transmitted, on the interface of the selected route if it has one. -/
def SendsOnRoute (s : TransportState) (r : Reading) (p : Wire.Packet) (destinationHash : Bytes) :
    Prop :=
  ∃ call name raw, outboundRouted s r p = some call ∧ call.transmissions = [(name, raw)] ∧
    call.sent = true ∧
    ∀ via, (selectPath s.pathTable s.interfaces destinationHash r.now).bind
      (·.receivingInterface) = some via → name = via

/-- A fresh route without an interface comes before the first route with one. -/
def HidesRoute (s : TransportState) (r : Reading) (destinationHash : Bytes) : Prop :=
  ∃ before e after,
    selectAllPaths s.pathTable s.interfaces destinationHash r.now = before ++ e :: after ∧
    e.receivingInterface = none ∧ isStale r e = false ∧
    ∀ e' ∈ before, e'.receivingInterface = none

/-! ## The selection functions -/

/-- The score of a route over its interface. -/
def routeScore (interfaces : List InterfaceStub) (e : PathEntry) : ℚ :=
  e.score ((e.receivingInterface.bind (findInterface interfaces)).bind (·.bitrate))

theorem selectPath_eq_firstMin (table : Table (List PathEntry)) (interfaces : List InterfaceStub)
    (destinationHash : Bytes) (now : ℚ) :
    selectPath table interfaces destinationHash now =
      FirstMin.firstMin (OrderDual.toDual ∘ routeScore interfaces)
        (((table destinationHash).getD []).filter (usable interfaces now none)) := by
  have hstep : (fun best e => some (betterPath interfaces best e)) =
      FirstMin.better (OrderDual.toDual ∘ routeScore interfaces) := by
    funext best e
    cases best with
    | none => rfl
    | some b =>
        change some (if routeScore interfaces e ≤ routeScore interfaces b then b else e) =
          if routeScore interfaces b < routeScore interfaces e then some e else some b
        split
        · rename_i hle
          rw [if_neg (not_lt.mpr hle)]
        · rename_i hlt
          rw [if_pos (not_le.mp hlt)]
  unfold selectPath selectPathExcluding FirstMin.firstMin
  rw [hstep]
  cases table destinationHash <;> rfl

/-- The first of the routes is the selected one. -/
theorem head?_selectAllPaths (table : Table (List PathEntry)) (interfaces : List InterfaceStub)
    (destinationHash : Bytes) (now : ℚ) :
    (selectAllPaths table interfaces destinationHash now).head? =
      selectPath table interfaces destinationHash now := by
  rw [selectPath_eq_firstMin, ← FirstMin.head?_mergeSort]
  rfl

/-! ## The routes that are tried -/

/-- A route that ends the search: it is fresh, or a frame is sent along it. -/
def settles (interfaces : List InterfaceStub) (r : Reading) (e : PathEntry) : Bool :=
  !isStale r e || (e.receivingInterface.bind (findInterface interfaces)).isSome

/-- The frame that is sent along a route. -/
def routeFrames (s : TransportState) (p : Wire.Packet) (destinationHash : Bytes) (e : PathEntry) :
    List (String × Bytes) :=
  (e.receivingInterface.bind (findInterface s.interfaces)).toList.map fun out =>
    (out.name, outboundRaw s p destinationHash e)

section Send

variable {s : TransportState} {r : Reading} {p : Wire.Packet} {destinationHash : Bytes}

theorem interfaces_shortenExpiry (s : TransportState) (r : Reading) (destinationHash : Bytes)
    (e : PathEntry) :
    (shortenExpiry s r destinationHash e).interfaces = s.interfaces ∧
      (shortenExpiry s r destinationHash e).localClientInterfaces = s.localClientInterfaces := by
  unfold shortenExpiry
  dsimp only
  split
  · exact ⟨rfl, rfl⟩
  · split <;> exact ⟨rfl, rfl⟩

theorem routeFrames_shortenExpiry (e e' : PathEntry) :
    routeFrames (shortenExpiry s r destinationHash e) p destinationHash e' =
      routeFrames s p destinationHash e' := by
  unfold routeFrames
  rw [(interfaces_shortenExpiry s r destinationHash e).1]
  simp only [outboundRaw_shortenExpiry]

/-- The search ends at the first route that settles it. -/
theorem frames_sendAlong (r : Reading) (p : Wire.Packet) (destinationHash : Bytes)
    (s : TransportState) (routes : List PathEntry) :
    (sendAlong r p destinationHash s routes).2.1 =
        (routes.find? (settles s.interfaces r)).toList.flatMap (routeFrames s p destinationHash) ∧
      (sendAlong r p destinationHash s routes).1.interfaces = s.interfaces ∧
      (sendAlong r p destinationHash s routes).1.localClientInterfaces =
        s.localClientInterfaces := by
  induction routes generalizing s with
  | nil => exact ⟨rfl, rfl, rfl⟩
  | cons e routes ih =>
      obtain ⟨hframes, hinterfaces, hclients⟩ := ih (shortenExpiry s r destinationHash e)
      obtain ⟨hsame, hsameClients⟩ := interfaces_shortenExpiry s r destinationHash e
      have hstale : (2 ≤ e.hops ∧ pathStaleThreshold < r.now - e.timestamp) ↔
          isStale r e = true := by
        simp [isStale]
      unfold sendAlong
      dsimp only
      by_cases hfresh : isStale r e = true
      · rw [if_pos (hstale.mpr hfresh)]
        cases hout : e.receivingInterface.bind (findInterface s.interfaces) with
        | none =>
            have hsettles : settles s.interfaces r e = false := by simp [settles, hfresh, hout]
            rw [List.find?_cons_of_neg (by simp [hsettles])]
            refine ⟨?_, hinterfaces.trans hsame, hclients.trans hsameClients⟩
            change (sendAlong r p destinationHash (shortenExpiry s r destinationHash e)
              routes).2.1 = _
            rw [hframes, hsame]
            congr 1
            funext e'
            exact routeFrames_shortenExpiry e e'
        | some out =>
            have hsettles : settles s.interfaces r e = true := by simp [settles, hout]
            rw [List.find?_cons_of_pos hsettles]
            refine ⟨?_, hsame, hsameClients⟩
            simp [routeFrames, hout]
      · have hsettles : settles s.interfaces r e = true := by simp [settles, hfresh]
        rw [if_neg (hstale.not.mpr hfresh), List.find?_cons_of_pos hsettles]
        exact ⟨by simp [routeFrames], rfl, rfl⟩

/-- A usable route with an interface leads over one that is online. -/
theorem online_of_usable {interfaces : List InterfaceStub} {now : ℚ} {e : PathEntry} {name : String}
    (h : usable interfaces now none e = true) (hvia : e.receivingInterface = some name) :
    ∃ out, findInterface interfaces name = some out ∧ out.name = name ∧ out.online = true := by
  unfold usable at h
  rw [hvia] at h
  cases hfind : findInterface interfaces name with
  | none => simp [hfind] at h
  | some out =>
      refine ⟨out, rfl, ?_, ?_⟩
      · simpa using List.find?_some hfind
      · simpa [hfind] using (Bool.and_eq_true_iff.mp h).2

theorem mem_selectAllPaths {table : Table (List PathEntry)} {interfaces : List InterfaceStub}
    {now : ℚ} {e : PathEntry} :
    e ∈ selectAllPaths table interfaces destinationHash now ↔
      e ∈ (table destinationHash).getD [] ∧ usable interfaces now none e = true := by
  unfold selectAllPaths
  rw [(List.mergeSort_perm _ _).mem_iff, List.mem_filter]

/-- A usable route settles the search when it is fresh or has an interface. -/
theorem settles_of_usable {e : PathEntry} (h : usable s.interfaces r.now none e = true) :
    settles s.interfaces r e = (!isStale r e || e.receivingInterface.isSome) := by
  unfold settles
  cases hvia : e.receivingInterface with
  | none => rfl
  | some name =>
      obtain ⟨out, hout, -, -⟩ := online_of_usable h hvia
      rw [Option.bind_some, hout]
      rfl

/-- A route is hidden when the route that settles the search has no interface. -/
theorem hidesRoute_iff {e : PathEntry}
    (hfind : (selectAllPaths s.pathTable s.interfaces destinationHash r.now).find?
      (settles s.interfaces r) = some e) :
    HidesRoute s r destinationHash ↔ e.receivingInterface = none := by
  have husable : ∀ e' ∈ selectAllPaths s.pathTable s.interfaces destinationHash r.now,
      settles s.interfaces r e' = (!isStale r e' || e'.receivingInterface.isSome) :=
    fun e' he' => settles_of_usable (mem_selectAllPaths.mp he').2
  constructor
  · rintro ⟨before, hidden, after, hsplit, hnone, hfresh, hbefore⟩
    rw [hsplit] at hfind husable
    have hsettles : settles s.interfaces r hidden = true := by
      rw [husable hidden (by simp), hfresh]
      rfl
    rw [List.find?_append, List.find?_cons_of_pos hsettles] at hfind
    cases hfirst : before.find? (settles s.interfaces r) with
    | none =>
        rw [hfirst] at hfind
        exact Option.some.inj hfind ▸ hnone
    | some e' =>
        rw [hfirst] at hfind
        exact Option.some.inj hfind ▸ hbefore e' (List.mem_of_find?_eq_some hfirst)
  · intro hnone
    obtain ⟨hsettles, before, after, hsplit, hbefore⟩ :=
      List.find?_eq_some_iff_append.mp hfind
    rw [hsplit] at husable
    refine ⟨before, e, after, hsplit, hnone, ?_, fun e' he' => ?_⟩
    · rw [husable e (by simp), hnone] at hsettles
      simpa using hsettles
    · have hskipped := hbefore e' he'
      rw [husable e' (by simp [he'])] at hskipped
      simp only [Bool.not_or, Bool.not_not, Bool.and_eq_true, Bool.not_eq_true',
        Option.isSome_eq_false_iff, Option.isNone_iff_eq_none] at hskipped
      exact hskipped.2

/-- The call on a packet with a route, from the route that settles the search. -/
theorem outboundRouted_of_find (hroutable : pathRoutable p = true)
    (hdest : outboundHash p = some destinationHash) {e : PathEntry}
    (hfind : (selectAllPaths s.pathTable s.interfaces destinationHash r.now).find?
      (settles s.interfaces r) = some e) :
    ∃ call, outboundRouted s r p = some call ∧
      call.transmissions = onlineFrames s (routeFrames s p destinationHash e) ∧
      call.sent = !call.transmissions.isEmpty := by
  have hroutes : selectAllPaths s.pathTable s.interfaces destinationHash r.now ≠ [] := by
    intro hnil
    rw [hnil] at hfind
    cases hfind
  obtain ⟨hframes, hinterfaces, hclients⟩ := frames_sendAlong r p destinationHash s
    (selectAllPaths s.pathTable s.interfaces destinationHash r.now)
  rw [hfind] at hframes
  unfold outboundRouted
  rw [hdest]
  dsimp only
  rw [if_pos (by simp [hroutable, hroutes])]
  refine ⟨_, rfl, ?_, rfl⟩
  change onlineFrames (sendAlong r p destinationHash s _).1
    (sendAlong r p destinationHash s _).2.1 = _
  rw [hframes]
  unfold onlineFrames
  rw [hinterfaces, hclients]
  simp

end Send

/-- A packet of this node that has a usable route with an interface is sent in one frame, on
the interface of the selected route, if and only if no fresh route without an interface comes
first. The selected route is the first of those that are tried. -/
theorem outboundRouted_iff (s : TransportState) (r : Reading) (p : Wire.Packet)
    (destinationHash : Bytes) :
    (∀ (table : Table (List PathEntry)) (interfaces : List InterfaceStub)
        (destinationHash : Bytes) (now : ℚ),
      (selectAllPaths table interfaces destinationHash now).head? =
        selectPath table interfaces destinationHash now) ∧
    (pathRoutable p = true → outboundHash p = some destinationHash →
      (∃ e ∈ (s.pathTable destinationHash).getD [], e.isExpired r.now = false ∧
        ∃ name, e.receivingInterface = some name ∧
          (findInterface s.interfaces name).any (·.online) = true) →
      (SendsOnRoute s r p destinationHash ↔ ¬HidesRoute s r destinationHash)) := by
  refine ⟨head?_selectAllPaths, fun hroutable hdest hroute => ?_⟩
  obtain ⟨known, hknown, hunexpired, name, hvia, honline⟩ := hroute
  have husable : usable s.interfaces r.now none known = true := by
    unfold usable
    rw [hvia, hunexpired]
    cases hfind : findInterface s.interfaces name with
    | none => simp [hfind] at honline
    | some out => simpa [hfind] using honline
  obtain ⟨e, hfind⟩ : ∃ e, (selectAllPaths s.pathTable s.interfaces destinationHash r.now).find?
      (settles s.interfaces r) = some e := by
    rw [← Option.isSome_iff_exists, List.find?_isSome]
    exact ⟨known, mem_selectAllPaths.mpr ⟨hknown, husable⟩, by
      rw [settles_of_usable husable, hvia, Option.isSome_some, Bool.or_true]⟩
  obtain ⟨call, hcall, htransmissions, hsent⟩ := outboundRouted_of_find hroutable hdest hfind
  rw [hidesRoute_iff hfind]
  cases hinterface : e.receivingInterface with
  | none =>
      -- The search ended without a frame.
      refine iff_of_false ?_ (by simp)
      rintro ⟨call', name', raw, hcall', hone, -, -⟩
      obtain rfl := Option.some.inj (hcall.symm.trans hcall')
      rw [htransmissions] at hone
      simp [routeFrames, hinterface, onlineFrames] at hone
  | some via =>
      refine iff_of_true ?_ (by simp)
      obtain ⟨out, hout, hname, hup⟩ := online_of_usable
        (mem_selectAllPaths.mp (List.mem_of_find?_eq_some hfind)).2 hinterface
      have hframes : call.transmissions = [(via, outboundRaw s p destinationHash e)] := by
        rw [htransmissions]
        simp [routeFrames, hinterface, hout, hname, onlineFrames, hup]
      refine ⟨call, via, _, hcall, hframes, ?_, fun selected hselected => ?_⟩
      · rw [hsent, hframes]
        rfl
      rw [← head?_selectAllPaths] at hselected
      obtain ⟨first, hfirst, hselected⟩ := Option.bind_eq_some_iff.mp hselected
      obtain ⟨rest, hroutes⟩ := List.head?_eq_some_iff.mp hfirst
      have hsettles : settles s.interfaces r first = true := by
        rw [settles_of_usable (mem_selectAllPaths.mp (List.mem_of_head? hfirst)).2, hselected,
          Option.isSome_some, Bool.or_true]
      rw [hroutes, List.find?_cons_of_pos hsettles] at hfind
      obtain rfl := Option.some.inj hfind
      exact Option.some.inj (hinterface.symm.trans hselected)

section Samples

/-- A route of so many hops. -/
def routedPath (hops : UInt8) (receivingInterface : Option String) : PathEntry :=
  { timestamp := 0, nextHop := List.replicate 16 5, hops := hops, expires := 60
    receivingInterface := receivingInterface, packetHash := [] }

/-- A node with these routes. -/
def routedState (routes : List PathEntry) : TransportState :=
  { sampleRelay with
    pathTable := TransportState.start.pathTable.insert (List.replicate 16 0) routes }

/-- A packet for the destination of the routes. -/
def routedPacket : Wire.Packet :=
  { Wire.Packet.holding (sampleFrame 0) none with
    destinationHash := some (List.replicate 16 0), destinationType := some .single }

theorem selectAllPaths_routed (routes tried : List PathEntry)
    (husable : routes.filter (usable sampleRelay.interfaces 0 none) = tried)
    (hsorted : tried.Pairwise fun a b =>
      decide (routeScore sampleRelay.interfaces b ≤ routeScore sampleRelay.interfaces a) = true) :
    selectAllPaths (routedState routes).pathTable (routedState routes).interfaces
      (List.replicate 16 0) 0 = tried := by
  have hentries : ((routedState routes).pathTable (List.replicate 16 0)).getD [] = routes := by
    change ((TransportState.start.pathTable.insert (List.replicate 16 0) routes)
      (List.replicate 16 0)).getD [] = routes
    rw [Table.insert_self, Option.getD_some]
  unfold selectAllPaths
  rw [hentries]
  dsimp only
  change (routes.filter (usable sampleRelay.interfaces 0 none)).mergeSort _ = tried
  rw [husable]
  exact List.mergeSort_of_pairwise hsorted

/-- In front a route over an interface that is gone, behind it one that can be used, and last one
without an interface. -/
def mixedRoutes : List PathEntry :=
  [routedPath 1 (some "gone"), routedPath 2 (some "right"), routedPath 3 none]

/-- The packet takes the second route. -/
theorem outboundRouted_iff_mixed :
    SendsOnRoute (routedState mixedRoutes) .zero routedPacket (List.replicate 16 0) := by
  have hroutes := selectAllPaths_routed mixedRoutes
    [routedPath 2 (some "right"), routedPath 3 none] (by decide +kernel) (by decide +kernel)
  refine ((outboundRouted_iff _ _ _ _).2 (by decide) rfl
    ⟨routedPath 2 (some "right"), by decide +kernel, ?_⟩).mpr ?_
  · exact ⟨by decide +kernel, "right", rfl, rfl⟩
  · rintro ⟨before, e, after, hsplit, hnone, -, hbefore⟩
    change selectAllPaths _ _ _ 0 = _ at hsplit
    rw [hroutes] at hsplit
    cases before with
    | nil =>
        obtain ⟨rfl, -⟩ := List.cons_eq_cons.mp hsplit
        cases hnone
    | cons first before =>
        obtain ⟨rfl, -⟩ := List.cons_eq_cons.mp hsplit
        cases hbefore _ List.mem_cons_self

/-- A route without an interface is shorter than the one that could be used. -/
theorem outboundRouted_false :
    ¬∀ (s : TransportState) (r : Reading) (p : Wire.Packet) (destinationHash : Bytes),
      pathRoutable p = true → outboundHash p = some destinationHash →
      (∃ e ∈ (s.pathTable destinationHash).getD [], e.isExpired r.now = false ∧
        ∃ name, e.receivingInterface = some name ∧
          (findInterface s.interfaces name).any (·.online) = true) →
      SendsOnRoute s r p destinationHash := by
  intro h
  have hroutes := selectAllPaths_routed [routedPath 1 none, routedPath 2 (some "right")]
    [routedPath 1 none, routedPath 2 (some "right")] (by decide +kernel) (by decide +kernel)
  obtain ⟨call, name, raw, hcall, hone, -, -⟩ :=
    h (routedState [routedPath 1 none, routedPath 2 (some "right")]) .zero routedPacket
      (List.replicate 16 0) (by decide) rfl
      ⟨routedPath 2 (some "right"), by decide +kernel, by decide +kernel, "right", rfl, rfl⟩
  have hfind : (selectAllPaths (routedState [routedPath 1 none,
      routedPath 2 (some "right")]).pathTable (routedState [routedPath 1 none,
        routedPath 2 (some "right")]).interfaces (List.replicate 16 0) Reading.zero.now).find?
      (settles (routedState [routedPath 1 none, routedPath 2 (some "right")]).interfaces
        Reading.zero) = some (routedPath 1 none) := by
    change (selectAllPaths _ _ _ 0).find? _ = _
    rw [hroutes]
    rfl
  obtain ⟨call', hcall', htransmissions, -⟩ :=
    outboundRouted_of_find (p := routedPacket) (by decide) rfl hfind
  obtain rfl := Option.some.inj (hcall'.symm.trans hcall)
  rw [htransmissions] at hone
  cases hone

end Samples

end Reticulum.Transport
