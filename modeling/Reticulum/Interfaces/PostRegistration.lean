import Reticulum.Lib.Assoc
import Reticulum.Lib.Fields
import Reticulum.Lib.Results

/-!
# What a registration signs

The bytes that a gateway signs are read from the JSON body that it sends. They determine every
field that is signed.

## Implementation notes

A JSON object is the list of its entries. Indexing what is no object, or a key that is not there,
gives null. A float is its bits.
-/

namespace Reticulum.Interfaces.PostRegistration

/-! ## JSON -/

inductive Number
  | posInt (n : UInt64)
  | negInt (n : Int)
  | float (bits : UInt64)

inductive Value
  | null
  | bool (b : Bool)
  | number (n : Number)
  | string (s : String)
  | array (items : List Value)
  | object (entries : List (String × Value))

namespace Value

def index (v : Value) (key : String) : Value :=
  match v with
  | object entries => (Assoc.get entries key).getD null
  | _ => null

def asStr : Value → Option String
  | string s => some s
  | _ => none

def asU64 : Value → Option UInt64
  | number (.posInt n) => some n
  | _ => none

theorem eq_string_of_asStr {v : Value} {s : String} (h : v.asStr = some s) : v = string s := by
  cases v with
  | string t => rw [Option.some.inj h]
  | null | bool | number | array | object => cases h

theorem eq_number_of_asU64 {v : Value} {n : UInt64} (h : v.asU64 = some n) :
    v = number (.posInt n) := by
  cases v with
  | number m =>
      cases m with
      | posInt k => rw [Option.some.inj h]
      | negInt | float => cases h
  | null | bool | string | array | object => cases h

end Value

/-! ## The signed bytes -/

/-- `reticulum-post/register/v1` -/
def registerDomain : Bytes := "reticulum-post/register/v1".toUTF8.data.toList

def asBytes (s : String) : Bytes := s.toUTF8.data.toList

def lp (out field : Bytes) : Except String Bytes :=
  if field.length < 65536 then .ok (out ++ Bytes.ofU16 field.length ++ field)
  else .error ("a signed field is " ++ toString field.length ++ " bytes, more than lp() can carry")

def text (v : Value) (what : String) : Except String String :=
  match v.asStr with
  | some s => .ok s
  | none => .error (what ++ " is not a string")

/-- The text of an optional field, empty where there is none. -/
def optional (md : Value) (key : String) : String := (md.index key).asStr.getD ""

/-- An unsigned integer below `bound`. -/
def unsigned (v : Value) (bound : Nat) (message : String) : Except String UInt64 :=
  match v.asU64 with
  | some n => if n.toNat < bound then .ok n else .error message
  | none => .error message

/-- The fields that are signed, in their order. -/
def signedFields (challenge publicKey : Bytes) (body : Value) : Except String (List Bytes) := do
  let md := body.index "metadata"
  let name ← text (body.index "name") "name"
  let bitrate ← unsigned (body.index "bitrate") (2 ^ 64) "bitrate is not an unsigned integer"
  let mtu ← unsigned (body.index "mtu") (2 ^ 32) "mtu is not a u32"
  let client ← text (md.index "client") "metadata.client"
  let mode ← unsigned (md.index "mode") (2 ^ 8) "metadata.mode is not a u8"
  return [registerDomain, challenge, publicKey, asBytes name, Fields.bigEndian 8 bitrate.toNat,
    Fields.bigEndian 4 mtu.toNat, asBytes client, Fields.bigEndian 1 mode.toNat,
    asBytes (optional md "transport"), asBytes (optional md "peer_url"),
    asBytes (optional md "peer_interface_id"), asBytes (optional md "peer_session_token")]

def registrationSignedBytes (challenge publicKey : Bytes) (body : Value) : Except String Bytes := do
  let fields ← signedFields challenge publicKey body
  fields.foldlM lp []

/-! ## What they determine -/

theorem asBytes_inj {s t : String} (h : asBytes s = asBytes t) : s = t :=
  String.toByteArray_inj.mp (ByteArray.ext (Array.toList_inj.mp h))

theorem text_eq_ok {v : Value} {what s : String} : text v what = .ok s ↔ v = .string s := by
  unfold text
  constructor
  · intro h
    split at h
    · next t ht => exact (Except.ok.inj h) ▸ Value.eq_string_of_asStr ht
    · cases h
  · rintro rfl
    rfl

theorem unsigned_eq_ok {v : Value} {bound : Nat} {message : String} {n : UInt64}
    (h : unsigned v bound message = .ok n) : v = .number (.posInt n) ∧ n.toNat < bound := by
  unfold unsigned at h
  split at h
  · next m hm =>
    split at h
    · next hlt =>
      obtain rfl := Except.ok.inj h
      exact ⟨Value.eq_number_of_asU64 hm, hlt⟩
    · cases h
  · cases h

/-- The fields are written behind their lengths if they all fit. -/
theorem foldlM_lp {fields : List Bytes} {out res : Bytes} :
    fields.foldlM lp out = .ok res ↔
      (∀ f ∈ fields, Fields.Fits f) ∧ res = out ++ fields.flatMap Fields.prefixed := by
  induction fields generalizing out with
  | nil =>
      rw [List.foldlM_nil, List.flatMap_nil, List.append_nil]
      exact ⟨fun h => ⟨fun f hf => absurd hf List.not_mem_nil, (Except.ok.inj h).symm⟩,
        fun h => congrArg Except.ok h.2.symm⟩
  | cons f fields ih =>
      rw [List.foldlM_cons, List.forall_mem_cons]
      unfold lp
      split
      · next hfits =>
        change fields.foldlM lp _ = _ ↔ _
        rw [ih, List.flatMap_cons, Fields.prefixed, List.append_assoc, List.append_assoc,
          List.append_assoc]
        exact ⟨fun h => ⟨⟨hfits, h.1⟩, h.2⟩, fun h => ⟨h.1.2, h.2⟩⟩
      · next hlong => exact ⟨fun h => (by cases h), fun h => absurd h.1.1 hlong⟩

/-- A field that is a string, null or absent. -/
def OptionalText (v : Value) : Prop := v = .null ∨ ∃ s, v = .string s

/-- Null and the empty string are the same. -/
def Blank (v : Value) : Prop := v = .null ∨ v = .string ""

def SameText (v w : Value) : Prop := v = w ∨ (Blank v ∧ Blank w)

def metadata (body : Value) (key : String) : Value := (body.index "metadata").index key

structure OptionalTexts (body : Value) : Prop where
  transport : OptionalText (metadata body "transport")
  peerUrl : OptionalText (metadata body "peer_url")
  peerInterfaceId : OptionalText (metadata body "peer_interface_id")
  peerSessionToken : OptionalText (metadata body "peer_session_token")

/-- The same registration but for what is not signed. -/
structure SameRegistration (body body' : Value) : Prop where
  name : body.index "name" = body'.index "name"
  bitrate : body.index "bitrate" = body'.index "bitrate"
  mtu : body.index "mtu" = body'.index "mtu"
  client : metadata body "client" = metadata body' "client"
  mode : metadata body "mode" = metadata body' "mode"
  transport : SameText (metadata body "transport") (metadata body' "transport")
  peerUrl : SameText (metadata body "peer_url") (metadata body' "peer_url")
  peerInterfaceId :
    SameText (metadata body "peer_interface_id") (metadata body' "peer_interface_id")
  peerSessionToken :
    SameText (metadata body "peer_session_token") (metadata body' "peer_session_token")

theorem sameText_of_asBytes {v w : Value} (hv : OptionalText v) (hw : OptionalText w)
    (h : asBytes (v.asStr.getD "") = asBytes (w.asStr.getD "")) : SameText v w := by
  have hsame := asBytes_inj h
  rcases hv with rfl | ⟨s, rfl⟩ <;> rcases hw with rfl | ⟨t, rfl⟩
  · exact Or.inl rfl
  · exact Or.inr ⟨Or.inl rfl, Or.inr (congrArg Value.string hsame.symm)⟩
  · exact Or.inr ⟨Or.inr (congrArg Value.string hsame), Or.inl rfl⟩
  · exact Or.inl (congrArg Value.string hsame)

/-- What a body holds whose fields can be signed. -/
theorem signedFields_eq_ok {challenge publicKey : Bytes} {body : Value} {fields : List Bytes}
    (h : signedFields challenge publicKey body = .ok fields) :
    ∃ (name client : String) (bitrate mtu mode : UInt64),
      body.index "name" = .string name ∧ body.index "bitrate" = .number (.posInt bitrate) ∧
      body.index "mtu" = .number (.posInt mtu) ∧ metadata body "client" = .string client ∧
      metadata body "mode" = .number (.posInt mode) ∧ mtu.toNat < 2 ^ 32 ∧ mode.toNat < 2 ^ 8 ∧
      fields = [registerDomain, challenge, publicKey, asBytes name,
        Fields.bigEndian 8 bitrate.toNat, Fields.bigEndian 4 mtu.toNat, asBytes client,
        Fields.bigEndian 1 mode.toNat, asBytes ((metadata body "transport").asStr.getD ""),
        asBytes ((metadata body "peer_url").asStr.getD ""),
        asBytes ((metadata body "peer_interface_id").asStr.getD ""),
        asBytes ((metadata body "peer_session_token").asStr.getD "")] := by
  unfold signedFields at h
  obtain ⟨name, hname, h⟩ := Results.bind_eq_ok.mp h
  obtain ⟨bitrate, hbitrate, h⟩ := Results.bind_eq_ok.mp h
  obtain ⟨mtu, hmtu, h⟩ := Results.bind_eq_ok.mp h
  obtain ⟨client, hclient, h⟩ := Results.bind_eq_ok.mp h
  obtain ⟨mode, hmode, h⟩ := Results.bind_eq_ok.mp h
  obtain ⟨hmtu, hmtuLt⟩ := unsigned_eq_ok hmtu
  obtain ⟨hmode, hmodeLt⟩ := unsigned_eq_ok hmode
  exact ⟨name, client, bitrate, mtu, mode, text_eq_ok.mp hname, (unsigned_eq_ok hbitrate).1, hmtu,
    text_eq_ok.mp hclient, hmode, hmtuLt, hmodeLt, (Except.ok.inj h).symm⟩

theorem registrationSignedBytes_eq_ok {challenge publicKey : Bytes} {body : Value} {out : Bytes} :
    registrationSignedBytes challenge publicKey body = .ok out ↔
      ∃ fields, signedFields challenge publicKey body = .ok fields ∧
        (∀ f ∈ fields, Fields.Fits f) ∧ out = fields.flatMap Fields.prefixed := by
  unfold registrationSignedBytes
  rw [Results.bind_eq_ok]
  exact exists_congr fun fields => and_congr_right fun _ => foldlM_lp

theorem number_inj {w : Nat} {n m : UInt64} (hn : n.toNat < 256 ^ w) (hm : m.toNat < 256 ^ w)
    (h : Fields.bigEndian w n.toNat = Fields.bigEndian w m.toNat) :
    Value.number (.posInt n) = .number (.posInt m) := by
  rw [UInt64.toNat_inj.mp (Fields.bigEndian_inj hn hm h)]

/-- The byte strings that a body holds for the fields that are texts. -/
def signedTexts (body : Value) : List Bytes :=
  ([body.index "name", metadata body "client", metadata body "transport", metadata body "peer_url",
    metadata body "peer_interface_id", metadata body "peer_session_token"].filterMap
      Value.asStr).map asBytes

/-- The signed bytes determine what is signed, and a field that does not fit is an error. -/
theorem registrationSignedBytes_inj :
    (∀ (challenge challenge' publicKey publicKey' : Bytes) (body body' : Value) (out : Bytes),
      OptionalTexts body → OptionalTexts body' →
      registrationSignedBytes challenge publicKey body = .ok out →
      registrationSignedBytes challenge' publicKey' body' = .ok out →
      challenge = challenge' ∧ publicKey = publicKey' ∧ SameRegistration body body') ∧
    ∀ (challenge publicKey : Bytes) (body : Value),
      ∀ field ∈ challenge :: publicKey :: signedTexts body, 65535 < field.length →
        ∃ message, registrationSignedBytes challenge publicKey body = .error message := by
  constructor
  · intro challenge challenge' publicKey publicKey' body body' out hopt hopt' h h'
    obtain ⟨fields, hfields, hfit, rfl⟩ := registrationSignedBytes_eq_ok.mp h
    obtain ⟨fields', hfields', hfit', hsame⟩ := registrationSignedBytes_eq_ok.mp h'
    obtain rfl := Fields.flatMap_prefixed_inj hfit hfit' hsame
    obtain ⟨name, client, bitrate, mtu, mode, hname, hbitrate, hmtu, hclient, hmode, hmtuLt,
      hmodeLt, hlist⟩ := signedFields_eq_ok hfields
    obtain ⟨name', client', bitrate', mtu', mode', hname', hbitrate', hmtu', hclient', hmode',
      hmtuLt', hmodeLt', hlist'⟩ := signedFields_eq_ok hfields'
    have heq := hlist.symm.trans hlist'
    simp only [List.cons.injEq, and_true, true_and] at heq
    obtain ⟨rfl, rfl, hnames, hbitrates, hmtus, hclients, hmodes, htransport, hurl, hid, htoken⟩ :=
      heq
    refine ⟨rfl, rfl, ?_⟩
    exact {
      name := by rw [hname, hname', asBytes_inj hnames]
      bitrate := by
        rw [hbitrate, hbitrate']
        exact number_inj bitrate.toNat_lt bitrate'.toNat_lt hbitrates
      mtu := by
        rw [hmtu, hmtu']
        exact number_inj hmtuLt hmtuLt' hmtus
      client := by rw [hclient, hclient', asBytes_inj hclients]
      mode := by
        rw [hmode, hmode']
        exact number_inj hmodeLt hmodeLt' hmodes
      transport := sameText_of_asBytes hopt.transport hopt'.transport htransport
      peerUrl := sameText_of_asBytes hopt.peerUrl hopt'.peerUrl hurl
      peerInterfaceId := sameText_of_asBytes hopt.peerInterfaceId hopt'.peerInterfaceId hid
      peerSessionToken := sameText_of_asBytes hopt.peerSessionToken hopt'.peerSessionToken htoken }
  · intro challenge publicKey body field hmem hlong
    cases h : registrationSignedBytes challenge publicKey body with
    | error message => exact ⟨message, rfl⟩
    | ok out =>
        exfalso
        obtain ⟨fields, hfields, hfit, -⟩ := registrationSignedBytes_eq_ok.mp h
        obtain ⟨name, client, bitrate, mtu, mode, hname, -, -, hclient, -, -, -, rfl⟩ :=
          signedFields_eq_ok hfields
        refine absurd (hfit field ?_) (Nat.not_lt.mpr hlong)
        rcases List.mem_cons.mp hmem with rfl | hmem
        · simp
        rcases List.mem_cons.mp hmem with rfl | hmem
        · simp
        obtain ⟨s, hs, rfl⟩ := List.mem_map.mp hmem
        obtain ⟨v, hv, hvs⟩ := List.mem_filterMap.mp hs
        simp only [List.mem_cons, List.not_mem_nil, or_false] at hv
        rcases hv with rfl | rfl | rfl | rfl | rfl | rfl
        · rw [hname] at hvs
          obtain rfl := Option.some.inj hvs
          simp
        · rw [hclient] at hvs
          obtain rfl := Option.some.inj hvs
          simp
        all_goals simp [hvs]

/-- A registration with this transport and no other optional field. -/
def sampleBody (transport : List (String × Value)) : Value :=
  .object [("name", .string "n"), ("bitrate", .number (.posInt 5)), ("mtu", .number (.posInt 500)),
    ("metadata", .object ([("client", .string "c"), ("mode", .number (.posInt 1))] ++ transport))]

theorem optionalTexts_sample {transport : List (String × Value)}
    (h : transport = [] ∨ transport = [("transport", .string "")]) :
    OptionalTexts (sampleBody transport) := by
  rcases h with rfl | rfl
  · exact ⟨Or.inl rfl, Or.inl rfl, Or.inl rfl, Or.inl rfl⟩
  · exact ⟨Or.inr ⟨_, rfl⟩, Or.inl rfl, Or.inl rfl, Or.inl rfl⟩

/-- The empty transport signs as none, and a challenge can be too long. -/
theorem registrationSignedBytes_inj_sample :
    (∃ out, registrationSignedBytes [1] [2] (sampleBody []) = .ok out ∧
      registrationSignedBytes [1] [2] (sampleBody [("transport", .string "")]) = .ok out ∧
      SameRegistration (sampleBody []) (sampleBody [("transport", .string "")])) ∧
    ∃ message, registrationSignedBytes (List.replicate 65536 0) [2] (sampleBody []) =
      .error message := by
  have hnone : OptionalTexts (sampleBody []) := optionalTexts_sample (Or.inl rfl)
  have hblank : OptionalTexts (sampleBody [("transport", .string "")]) :=
    optionalTexts_sample (Or.inr rfl)
  constructor
  · refine ⟨_, rfl, rfl, ?_⟩
    exact (registrationSignedBytes_inj.1 [1] [1] [2] [2] _ _ _ hnone hblank rfl rfl).2.2
  · refine registrationSignedBytes_inj.2 _ _ _ _ List.mem_cons_self ?_
    rw [List.length_replicate]
    decide

end Reticulum.Interfaces.PostRegistration
