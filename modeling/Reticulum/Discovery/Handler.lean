import Reticulum.Discovery.Announcer

/-!
# Handling a discovery announce

`decode_announce` with its two caches of checked stamps, and `interface_info`, which reads the
announced dictionary. `announce_never_understood` says what a handler makes of the announces of
this implementation.

## Implementation notes

Announces are handled one at a time, so that the validation lock is free, and the handler has a
callback. What Transport and the clock say when an announce is handled comes with the announce.
The state of a heard interface (when it was discovered, how often it was heard) is not of the
announce and left out of `InterfaceInfo`.
-/

namespace Reticulum.Discovery

/-! ## The dictionary of an announce -/

/-- What an announce says of an interface. -/
structure InterfaceInfo where
  interfaceType : String
  transport : Bool
  name : String
  received : UInt64
  stamp : Bytes
  value : Nat
  transportId : String
  networkId : String
  hops : Nat
  latitude : Option UInt64
  longitude : Option UInt64
  height : Option UInt64
  reachableOn : Option String := none
  port : Option Nat := none
  ifacNetname : Option String := none
  ifacNetkey : Option String := none
  frequency : Option Nat := none
  bandwidth : Option Nat := none
  sf : Option Nat := none
  cr : Option Nat := none
  channel : Option Nat := none
  modulation : Option String := none
  configEntry : Option String := none
  discoveryHash : Option Bytes := none
  operatorLxmfAddress : Option String := none

/-- A checked stamp. -/
structure StampCheck where
  valid : Bool
  value : Nat
  packed : Bytes
  stamp : Bytes

/-- What a handler works with: the libraries, the required stamp value, the authorised
sources, the network identity, and whether the platform has backbone interfaces. -/
structure Setting where
  lib : Libraries
  requiredValue : Nat
  discoverySources : List Bytes
  networkIdentity : Option (Bytes → Option Bytes)
  backboneSupport : Bool

/-- An announce, and what Transport and the clock say when it comes. -/
structure Announce where
  networkId : Bytes
  appData : Bytes
  hops : Nat
  now : UInt64

/-- `hexrep`, without delimiters. -/
def hexrep (bytes : Bytes) : String :=
  String.ofList (bytes.flatMap fun b => [Nat.digitChar (b.toNat / 16), Nat.digitChar (b.toNat % 16)])

/-- A truncated hash has this many bytes. -/
def truncatedHashLen : Nat := 16

/-- A field that must be there. -/
def field (m : Value) (key : UInt8) (name : String) : Except String Value :=
  match mapGet m key with
  | some value => .ok value
  | none => .error s!"missing {name} field in announce"

/-- `None` or a float. -/
def floatOrNil (lib : Libraries) : Value → Option (Option UInt64)
  | .nil => some none
  | .f32 bits => some (some (lib.widen bits))
  | .f64 bits => some (some bits)
  | _ => none

/-- `str` of the value, as the sender has it. -/
def pythonStr : Value → Except String String
  | .string (some text) => .ok text
  | .string none => .error "Invalid string in announce"
  | .nil => .ok "None"
  | .boolean b => .ok (if b then "True" else "False")
  | .integer n => .ok (toString n)
  | _ => .error "Invalid IFAC data in announce"

def invalidData (name : String) : String := s!"Invalid data in {name} field of announce"

/-- A field of a form that is required. -/
def fieldAs {A : Type} (m : Value) (key : UInt8) (name : String) (read : Value → Option A) :
    Except String A := do
  let value ← field m key name
  match read value with
  | some a => .ok a
  | none => .error (invalidData name)

/-- The name: a string in its sanitised form, or nothing. -/
def readName : Value → Option (Option String)
  | .string (some text) => some (sanitizeName text)
  | .nil => some none
  | _ => none

/-- The transport id, if it has the length of one. -/
def readTransportId : Value → Option Bytes
  | .binary id => if id.length == truncatedHashLen then some id else none
  | _ => none

/-- An address, where one is named. -/
def readReachableOn (m : Value) : Except String (Option String) :=
  match mapGet m keyReachableOn with
  | none => .ok none
  | some value =>
      match value.asStr with
      | some address =>
          if isIpAddress address || isHostname address then .ok (some address)
          else .error (invalidData "reachable_on")
      | none => .error (invalidData "reachable_on")

/-- A number below a bound. -/
def natBelow (bound : Nat) (value : Value) : Option Nat := value.asU64.filter (· < bound)

/-- A field that may be missing. -/
def optionalStr (m : Value) (key : UInt8) : Except String (Option String) :=
  match mapGet m key with
  | none => .ok none
  | some value => (pythonStr value).map some

/-- A number in a comment of a configuration entry. -/
def shown : Option String → String
  | some text => text
  | none => "None"

/-- A line of a configuration entry for a setting that is not empty. -/
def configLine (key : String) : Option String → String
  | some value => if value.isEmpty then "" else s!"\n  {key} = {value}"
  | none => ""

/-- What each type of interface has besides, with an entry for the configuration. -/
def typedInfo (set : Setting) (m : Value) (info : InterfaceInfo) (reachableOn : Option String) :
    Except String InterfaceInfo :=
  let name := info.name
  let transportId := info.transportId
  let identity := s!"\n  transport_identity = {transportId}"
  let netname := configLine "network_name" info.ifacNetname
  let netkey := configLine "passphrase" info.ifacNetkey
  match info.interfaceType with
  | "BackboneInterface" | "TCPServerInterface" =>
      match reachableOn with
      | none => .error "missing reachable_on field in announce"
      | some remote => do
          let port ← fieldAs m keyPort "port" (natBelow 65536)
          let type := if set.backboneSupport then "BackboneInterface" else "TCPClientInterface"
          let key := if set.backboneSupport then "remote" else "target_host"
          let head := s!"[[{name}]]\n  type = {type}\n  enabled = yes\n  {key} = {remote}\n"
          let entry := s!"{head}  target_port = {port}{identity}{netname}{netkey}"
          pure { info with configEntry := some entry, reachableOn := some remote, port := some port }
  | "I2PInterface" =>
      match reachableOn with
      | none => .error "missing reachable_on field in announce"
      | some remote =>
          let head := s!"[[{name}]]\n  type = I2PInterface\n  enabled = yes\n"
          let entry := s!"{head}  peers = {remote}{identity}{netname}{netkey}"
          .ok { info with configEntry := some entry, reachableOn := some remote }
  | "RNodeInterface" => do
      let frequency ← field m keyFrequency "frequency"
      let bandwidth ← field m keyBandwidth "bandwidth"
      let sf ← field m keySpreadingFactor "spreadingfactor"
      let cr ← field m keyCodingRate "codingrate"
      let frequency := frequency.asU64
      let bandwidth := natBelow (2 ^ 32) bandwidth
      let sf := natBelow 256 sf
      let cr := natBelow 256 cr
      let frequencyText := shown (frequency.map toString)
      let bandwidthText := shown (bandwidth.map toString)
      let sfText := shown (sf.map toString)
      let crText := shown (cr.map toString)
      let head := s!"[[{name}]]\n  type = RNodeInterface\n  enabled = yes\n  port = \n"
      let radio := s!"  frequency = {frequencyText}\n  bandwidth = {bandwidthText}\n"
      let coding := s!"  spreadingfactor = {sfText}\n  codingrate = {crText}\n  txpower = "
      let entry := s!"{head}{radio}{coding}{netname}{netkey}"
      pure { info with frequency, bandwidth, sf, cr, configEntry := some entry }
  | "WeaveInterface" => do
      let frequency ← field m keyFrequency "frequency"
      let bandwidth ← field m keyBandwidth "bandwidth"
      let channel ← field m keyChannel "channel"
      let modulation ← field m keyModulation "modulation"
      let head := s!"[[{name}]]\n  type = WeaveInterface\n  enabled = yes\n  port = "
      pure { info with
        frequency := frequency.asU64
        bandwidth := natBelow (2 ^ 32) bandwidth
        channel := natBelow 256 channel
        modulation := modulation.asStr
        configEntry := some s!"{head}{netname}{netkey}" }
  | "KISSInterface" => do
      let frequency ← field m keyFrequency "frequency"
      let bandwidth ← field m keyBandwidth "bandwidth"
      let modulation ← field m keyModulation "modulation"
      let frequency := frequency.asU64
      let bandwidth := natBelow (2 ^ 32) bandwidth
      let modulation := modulation.asStr
      let frequencyText := shown (frequency.map toString)
      let bandwidthText := shown (bandwidth.map toString)
      let modulationText := shown modulation
      let head := s!"[[{name}]]\n  type = KISSInterface\n  enabled = yes\n  port = \n"
      let radio := s!"  # Frequency: {frequencyText}\n  # Bandwidth: {bandwidthText}\n"
      let entry := s!"{head}{radio}  # Modulation: {modulationText}{identity}{netname}{netkey}"
      pure { info with frequency, bandwidth, modulation, configEntry := some entry }
  | _ => .ok info

/-- The `info` that a dictionary stands for; none when it names no interface type. -/
def interfaceInfo (set : Setting) (m : Value) (a : Announce) (check : StampCheck) :
    Except String (Option InterfaceInfo) :=
  match mapGet m keyInterfaceType with
  | none => .ok none
  | some value => do
      let interfaceType := value.asStr.getD ""
      let name ← fieldAs m keyName "name" readName
      let transport ← fieldAs m keyTransport "transport" Value.asBool
      let latitude ← fieldAs m keyLatitude "latitude" (floatOrNil set.lib)
      let longitude ← fieldAs m keyLongitude "longitude" (floatOrNil set.lib)
      let height ← fieldAs m keyHeight "height" (floatOrNil set.lib)
      let transportId ← fieldAs m keyTransportId "transport_id" readTransportId
      if discoverableInterfaceTypes.contains interfaceType then pure ()
      else throw "Invalid interface type in announce data"
      let reachableOn ← readReachableOn m
      let ifacNetname ← optionalStr m keyIfacNetname
      let ifacNetkey ← optionalStr m keyIfacNetkey
      let info ← typedInfo set m
        { interfaceType
          transport
          name := (name.filter fun text => !text.isEmpty).getD s!"Discovered {interfaceType}"
          received := a.now
          stamp := check.stamp
          value := check.value
          transportId := hexrep transportId
          networkId := hexrep a.networkId
          hops := a.hops
          latitude
          longitude
          height
          ifacNetname
          ifacNetkey } reachableOn
      let material := info.transportId ++ info.name
      pure (some { info with discoveryHash := some (set.lib.fullHash (asBytes material)) })

/-! ## The caches -/

def validCacheMax : Nat := 2048

def invalidCacheMax : Nat := 2048

/-- Checked stamps by the hash of their announce data, and the hashes in the order in which they
came. -/
structure ValidCache where
  entries : List (Bytes × StampCheck)
  order : List Bytes

namespace ValidCache

/-- While there are too many entries the oldest goes. -/
def trim : List (Bytes × StampCheck) → List Bytes → ValidCache
  | entries, [] => { entries := entries, order := [] }
  | entries, oldest :: order =>
      if validCacheMax < entries.length then
        trim (Assoc.retain (fun key => key != oldest) entries) order
      else { entries := entries, order := oldest :: order }

/-- `ValidCache::insert`: the oldest go when there are too many. -/
def insert (cache : ValidCache) (key : Bytes) (check : StampCheck) : ValidCache :=
  let order := if (Assoc.get cache.entries key).isNone then cache.order ++ [key] else cache.order
  trim (Assoc.put cache.entries key check) order

end ValidCache

/-- While there are too many hashes the oldest goes. -/
def pushInvalid (cache : List Bytes) (key : Bytes) : List Bytes :=
  (cache ++ [key]).drop ((cache ++ [key]).length - invalidCacheMax)

/-- The caches of a handler. -/
structure Handler where
  validCache : ValidCache
  invalidCache : List Bytes

namespace Handler

def new : Handler := { validCache := { entries := [], order := [] }, invalidCache := [] }

end Handler

/-! ## Handling -/

def flagEncrypted : UInt8 := 0b00000010

/-- What comes of an announce. -/
inductive Outcome
  | ignored
  | failed (e : String)
  | called (info : InterfaceInfo)

namespace Announce

/-- The first byte of the data. -/
def flags (a : Announce) : UInt8 := a.appData.headD 0

/-- The data behind the flags. -/
def data (a : Announce) : Bytes := a.appData.tail

/-- The flag, which the announcer never sets. -/
def encrypted (a : Announce) : Bool := a.flags &&& flagEncrypted != 0

end Announce

namespace Setting

variable (set : Setting)

/-- The announce data to be checked; without a network identity an encrypted one is not read. -/
def plaintext (encrypted : Bool) (data : Bytes) : Option Bytes :=
  if encrypted then set.networkIdentity.bind fun decrypt => decrypt data else some data

/-- The check of a stamp at the end of announce data. -/
def stampCheck (data : Bytes) : StampCheck :=
  let stamp := data.drop (data.length - stampSize)
  let packed := data.take (data.length - stampSize)
  let workblock :=
    set.lib.stampWorkblock (set.lib.fullHash packed) Libraries.workblockExpandRounds
  { valid := set.lib.stampValid stamp set.requiredValue workblock
    value := set.lib.stampValue workblock stamp
    packed := packed
    stamp := stamp }

/-- The check of announce data that is in no cache, unless it is to be ignored. -/
def examine (encrypted : Bool) (data : Bytes) : Except String (Option StampCheck) :=
  match set.plaintext encrypted data with
  | none => .ok none
  | some plain =>
      if plain.length < stampSize then .error "announce data is shorter than a stamp"
      else .ok (some (set.stampCheck plain))

/-- The operator's address goes into the info. -/
def withOperator (m : Value) (info : InterfaceInfo) : Except String InterfaceInfo :=
  match mapGet m keyOpAddr with
  | none => .ok info
  | some .nil => .ok info
  | some (.binary address) =>
      if address.length = truncatedHashLen then
        .ok { info with operatorLxmfAddress := some (hexrep address) }
      else .ok info
  | some _ => .error "Invalid data in operator LXMF address field of announce"

/-- From the dictionary to the callback. -/
def report (a : Announce) (check : StampCheck) : Outcome :=
  match set.lib.decode check.packed with
  | .error e => .failed e
  | .ok m =>
      match interfaceInfo set m a check with
      | .error e => .failed e
      | .ok none => .ignored
      | .ok (some info) =>
          match withOperator m info with
          | .error e => .failed e
          | .ok info => .called info

/-- What comes of a check. -/
def verdict (a : Announce) (check : StampCheck) : Outcome :=
  if !check.valid then .ignored
  else if check.value < set.requiredValue then .ignored
  else set.report a check

/-- The source is authorised and there is more than flags and a stamp. -/
def admits (a : Announce) : Bool :=
  (set.discoverySources.isEmpty || set.discoverySources.contains a.networkId) &&
    stampSize + 1 < a.appData.length

end Setting

namespace Handler

/-- After a check: the hash of an announce with an insufficient stamp is kept. -/
def settle (set : Setting) (handler : Handler) (a : Announce) (check : StampCheck) : Handler :=
  if check.valid then handler
  else
    { handler with
      invalidCache := pushInvalid handler.invalidCache (set.lib.fullHash a.data) }

/-- `decode_announce`. -/
def decodeAnnounce (set : Setting) (handler : Handler) (a : Announce) : Handler × Outcome :=
  if !set.admits a then (handler, .ignored)
  else
    let fullhash := set.lib.fullHash a.data
    if handler.invalidCache.contains fullhash then (handler, .ignored)
    else
      match Assoc.get handler.validCache.entries fullhash with
      | some check => (handler.settle set a check, set.verdict a check)
      | none =>
          match set.examine a.encrypted a.data with
          | .error e => (handler, .failed e)
          | .ok none => (handler, .ignored)
          | .ok (some check) =>
              let handler :=
                { handler with validCache := handler.validCache.insert fullhash check }
              (handler.settle set a check, set.verdict a check)

/-- What a handler with empty caches makes of an announce. -/
def fresh (set : Setting) (a : Announce) : Outcome := (new.decodeAnnounce set a).2

theorem fresh_eq (set : Setting) (a : Announce) :
    fresh set a =
      if !set.admits a then .ignored
      else
        match set.examine a.encrypted a.data with
        | .error e => .failed e
        | .ok none => .ignored
        | .ok (some check) => set.verdict a check := by
  unfold fresh decodeAnnounce
  cases set.admits a with
  | false => rfl
  | true =>
      cases set.examine a.encrypted a.data with
      | error e => simp [new, Assoc.get]
      | ok check =>
          cases check with
          | none => simp [new, Assoc.get]
          | some check => simp [new, Assoc.get]

end Handler

/-! ## Announces of this implementation -/

/-- A value of the packed dictionary is an array. -/
theorem mapGet_byteMap {entries : List (UInt8 × Bytes)} {key : UInt8} {value : Value}
    (h : mapGet (byteMap entries) key = some value) : ∃ bytes, value = byteArray bytes := by
  simp only [mapGet, byteMap, Value.asMap, Option.bind_eq_bind, Option.bind_some,
    Option.map_eq_some_iff] at h
  obtain ⟨e, hfind, rfl⟩ := h
  have hmem := List.mem_reverse.mp (List.mem_of_find?_eq_some hfind)
  obtain ⟨e', -, rfl⟩ := List.mem_map.mp hmem
  exact ⟨e'.2, rfl⟩

/-- Such a dictionary has no name that a handler can read. -/
theorem fieldAs_name_byteMap (entries : List (UInt8 × Bytes)) :
    ∃ e, fieldAs (byteMap entries) keyName "name" readName = .error e := by
  unfold fieldAs field
  cases hname : mapGet (byteMap entries) keyName with
  | none => exact ⟨_, rfl⟩
  | some value =>
      obtain ⟨bytes, rfl⟩ := mapGet_byteMap hname
      exact ⟨_, rfl⟩

/-- It is no interface, or the name is in the way. -/
theorem interfaceInfo_byteMap (set : Setting) (entries : List (UInt8 × Bytes)) (a : Announce)
    (check : StampCheck) :
    interfaceInfo set (byteMap entries) a check = .ok none ∨
      ∃ e, interfaceInfo set (byteMap entries) a check = .error e := by
  unfold interfaceInfo
  cases mapGet (byteMap entries) keyInterfaceType with
  | none => exact Or.inl rfl
  | some value =>
      obtain ⟨e, hname⟩ := fieldAs_name_byteMap entries
      refine Or.inr ⟨e, ?_⟩
      dsimp only
      rw [hname]
      rfl

/-- The info says of the interface what its stub and the host say. -/
structure Tells (host : Host) (stub : InterfaceStub) (info : InterfaceInfo) : Prop where
  interfaceType : info.interfaceType = getInterfaceType stub.name
  transport : info.transport = host.transportEnabled
  transportId : host.identityHash.map hexrep = some info.transportId
  name : info.name = ((stub.discoveryName.bind sanitizeName).filter fun text => !text.isEmpty).getD
    ("Discovered " ++ info.interfaceType)
  latitude : info.latitude = stub.discoveryLatitude
  longitude : info.longitude = stub.discoveryLongitude
  height : info.height = stub.discoveryHeight
  reachableOn : info.reachableOn = stub.reachableOn.map sanitize
  frequency : info.frequency = stub.discoveryFrequency.map UInt64.toNat
  bandwidth : info.bandwidth = stub.discoveryBandwidth.map UInt32.toNat
  modulation : info.modulation = stub.discoveryModulation.map sanitize
  ifacNetname : info.ifacNetname =
    if stub.discoveryPublishIfac then stub.ifacNetname.map sanitize else none
  ifacNetkey : info.ifacNetkey =
    if stub.discoveryPublishIfac then stub.ifacNetkey.map sanitize else none

/-- A handler with empty caches calls its callback with what the stub has. -/
def Understood (set : Setting) (host : Host) (stub : InterfaceStub) (a : Announce) : Prop :=
  ∃ info, Handler.fresh set a = .called info ∧ Tells host stub info

/-- The dictionary of an announce is unpacked as it was packed, and leads to no callback. -/
theorem report_announce {set : Setting} {host : Host} {stub : InterfaceStub} {packed : Bytes}
    (hinverts : set.lib.Inverts) (hpacked : set.lib.encode (stub.info set.lib host) = some packed)
    (a : Announce) {check : StampCheck} (hcheck : check.packed = packed) (info : InterfaceInfo) :
    set.report a check ≠ .called info := by
  obtain ⟨entries, -, hdecode⟩ := hinverts _ _ hpacked
  unfold Setting.report
  rw [hcheck, hdecode]
  rcases interfaceInfo_byteMap set entries a check with hnone | ⟨e, herror⟩
  · simp [hnone]
  · simp [herror]

/-- A packed dictionary and its stamp are told apart by the length of the stamp. -/
theorem stampCheck_packed (set : Setting) (packed : Bytes) (stamp : Stamp) :
    (set.stampCheck (packed ++ stamp.1)).packed = packed := by
  have hlength : stamp.1.length = stampSize := stamp.2
  have hsplit : (packed ++ stamp.1).length - stampSize = packed.length := by
    rw [List.length_append, hlength, Nat.add_sub_cancel]
  simp only [Setting.stampCheck, hsplit, List.take_left']

/-- An announce of this implementation does not reach the callback. -/
theorem fresh_ne_called (set : Setting) (host : Host) (stub : InterfaceStub)
    {stampCache stampCache' : List (Bytes × Stamp)} {data : Bytes} (hinverts : set.lib.Inverts)
    (hdata : getInterfaceAnnounceData set.lib host stub stampCache = some (data, stampCache'))
    {a : Announce} (ha : a.appData = data) (info : InterfaceInfo) :
    Handler.fresh set a ≠ .called info := by
  obtain ⟨packed, hpacked, stamp, rfl⟩ := announceData_eq hdata
  have hbytes : a.data = packed ++ stamp.1 := by rw [Announce.data, ha]; rfl
  have hplain : a.encrypted = false := by
    rw [Announce.encrypted, Announce.flags, ha, List.headD_cons]
    decide
  intro hcalled
  rw [Handler.fresh_eq, hplain, hbytes] at hcalled
  split at hcalled
  · cases hcalled
  unfold Setting.examine Setting.plaintext at hcalled
  simp only [Bool.false_eq_true, if_false] at hcalled
  split at hcalled
  · cases hcalled
  · cases hcalled
  · rename_i check hcheck
    split at hcheck
    · cases hcheck
    obtain rfl : set.stampCheck (packed ++ stamp.1) = check :=
      Option.some.inj (Except.ok.inj hcheck)
    unfold Setting.verdict at hcalled
    split at hcalled
    · cases hcalled
    split at hcalled
    · cases hcalled
    exact report_announce hinverts hpacked a (stampCheck_packed set packed stamp) info hcalled

/-- No announce of this implementation is understood by its own handler, whatever the
interface. -/
theorem announce_never_understood (set : Setting) (host : Host) (stub : InterfaceStub)
    {stampCache stampCache' : List (Bytes × Stamp)} {data : Bytes} (hinverts : set.lib.Inverts)
    (hdata : getInterfaceAnnounceData set.lib host stub stampCache = some (data, stampCache'))
    {a : Announce} (ha : a.appData = data) : ¬Understood set host stub a := by
  rintro ⟨info, hcalled, -⟩
  exact fresh_ne_called set host stub hinverts hdata ha info hcalled

/-! ## A server on its own network -/

/-- A TCP server that publishes neither its network name nor its key. -/
def sampleStub : InterfaceStub where
  name := "TCP Server"
  discoveryPublishIfac := false
  reachableOn := some "10.0.0.1"
  discoveryName := some "Node"
  discoveryEncrypt := false
  discoveryStampValue := some 16
  discoveryLatitude := none
  discoveryLongitude := none
  discoveryHeight := none
  discoveryFrequency := none
  discoveryBandwidth := none
  discoveryModulation := none
  ifacNetname := none
  ifacNetkey := none

def sampleHost : Host where
  transportEnabled := true
  identityHash := some [1, 2, 3, 4, 5, 6, 7, 8, 9, 10, 11, 12, 13, 14, 15, 16]

/-- The dictionary of the sample interface. -/
def sampleInfo : List (UInt8 × Bytes) :=
  [(0, [84, 67, 80, 83, 101, 114, 118, 101, 114, 73, 110, 116, 101, 114, 102, 97, 99, 101]),
    (1, [1]), (254, [1, 2, 3, 4, 5, 6, 7, 8, 9, 10, 11, 12, 13, 14, 15, 16]),
    (255, [78, 111, 100, 101]), (2, [49, 48, 46, 48, 46, 48, 46, 49])]

/-- Its MessagePack. -/
def samplePacked : Bytes :=
  [
    133, 0, 220, 0, 18, 84, 67, 80, 83, 101, 114, 118, 101, 114, 73, 110, 116, 101, 114, 102,
    97, 99, 101, 1, 145, 1, 204, 254, 220, 0, 16, 1, 2, 3, 4, 5, 6, 7, 8, 9, 10, 11, 12, 13, 14,
    15, 16, 204, 255, 148, 78, 111, 100, 101, 2, 152, 49, 48, 46, 48, 46, 48, 46, 49
  ]

def sampleStamp : Stamp := ⟨List.replicate stampSize 0, by decide⟩

/-- Stand-ins for the crates, with one dictionary and a hash that tells byte strings apart. -/
def sampleLibraries : Libraries where
  fullHash := List.reverse
  hkdf salt _ := salt
  writeUint n := [UInt8.ofNat n]
  encode info := if info = sampleInfo then some samplePacked else none
  decode packed := if packed = samplePacked then .ok (byteMap sampleInfo) else .error "no value"
  showF64 _ := "0"
  widen _ := 0
  search _ _ := some sampleStamp

def sampleSetting : Setting where
  lib := sampleLibraries
  requiredValue := 16
  discoverySources := []
  networkIdentity := none
  backboneSupport := true

theorem sampleLibraries_inverts : sampleSetting.lib.Inverts := by
  intro info packed h
  by_cases hinfo : info = sampleInfo
  · subst hinfo
    obtain rfl : samplePacked = packed := by simpa [sampleSetting, sampleLibraries] using h
    exact ⟨sampleInfo, List.Perm.refl _, by simp [sampleSetting, sampleLibraries]⟩
  · simp [sampleSetting, sampleLibraries, hinfo] at h

def sampleAnnounce : Announce where
  networkId := [7]
  appData := 0 :: (samplePacked ++ sampleStamp.1)
  hops := 1
  now := 0

theorem sampleStub_data :
    ∃ stampCache, getInterfaceAnnounceData sampleSetting.lib sampleHost sampleStub [] =
      some (sampleAnnounce.appData, stampCache) := by
  have htype : discoverableInterfaceTypes.contains (getInterfaceType sampleStub.name) = true := by
    decide
  have hreachable : sampleStub.reachable = true := by decide
  have hinfo : sampleStub.info sampleSetting.lib sampleHost = sampleInfo := by decide
  have hencode : sampleSetting.lib.encode sampleInfo = some samplePacked := by
    simp [sampleSetting, sampleLibraries]
  have hstamp : ∀ material cost rounds,
      sampleSetting.lib.generateStamp material cost rounds = some sampleStamp :=
    fun _ _ _ => rfl
  refine ⟨Assoc.put [] (sampleSetting.lib.fullHash samplePacked) sampleStamp, ?_⟩
  simp only [getInterfaceAnnounceData, htype, hreachable, hinfo, hencode, hstamp,
    Bool.not_true, Bool.false_eq_true, if_false, Option.bind_eq_bind, Option.bind_some]
  rfl

theorem announce_never_understood_sample :
    ¬Understood sampleSetting sampleHost sampleStub sampleAnnounce := by
  obtain ⟨stampCache, hdata⟩ := sampleStub_data
  exact announce_never_understood sampleSetting sampleHost sampleStub sampleLibraries_inverts hdata rfl

/-- A server announces itself with a valid address and a good stamp, and its own handler fails
on the name. -/
theorem announce_understood_false :
    sampleSetting.lib.Inverts ∧ sampleStub.reachable = true ∧
      (∃ stampCache, getInterfaceAnnounceData sampleSetting.lib sampleHost sampleStub [] =
        some (sampleAnnounce.appData, stampCache)) ∧
      sampleSetting.requiredValue ≤ sampleStub.discoveryStampValue.getD defaultStampValue ∧
      ¬Understood sampleSetting sampleHost sampleStub sampleAnnounce := by
  refine ⟨sampleLibraries_inverts, by decide, sampleStub_data, by decide, ?_⟩
  obtain ⟨stampCache, hdata⟩ := sampleStub_data
  rintro ⟨info, hcalled, -⟩
  exact fresh_ne_called sampleSetting sampleHost sampleStub sampleLibraries_inverts hdata rfl info
    hcalled

end Reticulum.Discovery
