import Reticulum.Destination.KnownRatchets
import Reticulum.Lib.Attempts

/-!
# Encryption for an identity and a destination

`encrypt_with_ratchet` and `decrypt_with_ratchets` of an identity
(`src/identity.rs`), `encrypt` and `decrypt` of a destination
(`src/destination.rs`), with `Token` below them. A receiver does not know which key
the sender has used, and tries those it holds.

## Implementation notes

A panic is `none`. The own ratchets of an identity are a hash map, in the order in
which it is iterated. Random bytes are inputs. A runtime link is asked through the
actor that owns it; when the actor's thread panics the caller gets an error.
-/

namespace Reticulum

/-- `Identity`, as far as encryption is concerned. Only keys of 32 bytes are inserted into
`ratchets`. -/
structure IdentityKeys where
  encryptionPrvKey : Option (Bytes.Block 32)
  encryptionPubKey : Option (Bytes.Block 32)
  hash : Option Bytes
  ratchets : List (Bytes × Bytes)
  ratchets_length : ∀ ratchet ∈ ratchets, ratchet.2.length = 32

namespace IdentityKeys

/-- `self.ratchets.insert`. -/
def insertRatchet (k : IdentityKeys) (ratchetId : Bytes) (ratchet : Bytes)
    (h : ratchet.length = 32) : IdentityKeys :=
  { k with
    ratchets := (ratchetId, ratchet) :: k.ratchets.filter fun entry => entry.1 != ratchetId
    ratchets_length := List.forall_mem_cons.mpr
      ⟨h, fun entry hentry => k.ratchets_length entry (List.mem_filter.mp hentry).1⟩ }

/-- `generate_ratchet`, with the bytes of the new key. -/
def generateRatchet (c : Crypto) (k : IdentityKeys) (ratchetBytes : Bytes.Block 32) :
    IdentityKeys :=
  k.insertRatchet (c.truncatedHash (c.publicKey ratchetBytes.1).1).1 ratchetBytes.1 ratchetBytes.2

/-- `remember_ratchet_local`, without a storage path. -/
def rememberRatchetLocal (k : IdentityKeys) (ratchetId ratchetPub : Bytes) :
    Except String IdentityKeys :=
  if h : ratchetPub.length = 32 then .ok (k.insertRatchet ratchetId ratchetPub h)
  else .error ("Invalid ratchet public key length: " ++ toString ratchetPub.length)

/-- The public key that a plaintext is encrypted to. -/
def targetPub (k : IdentityKeys) : Option Bytes → Except String Bytes
  | some ratchet =>
      if ratchet.length = 32 then .ok ratchet else .error "Invalid ratchet public key length"
  | none =>
      match k.encryptionPubKey with
      | some pub => .ok pub.1
      | none => .error "Identity has no public key"

/-- `encrypt_with_ratchet`, with the ephemeral key and the vector that it draws. -/
def encryptWithRatchet (c : Crypto) (k : IdentityKeys) (ephemeral : Bytes.Block 32)
    (vector : Bytes.Block 16) (plaintext : Bytes) (ratchet : Option Bytes) :
    Except String Bytes :=
  match k.hash with
  | none => .error "Identity hash not available"
  | some salt => do
      let pub ← k.targetPub ratchet
      let token ← Token.new (c.hkdf salt (c.diffieHellman ephemeral.1 pub).1 64).1
      let ciphertext ← token.encrypt c vector plaintext
      pure ((c.publicKey ephemeral.1).1 ++ ciphertext)

def decryptWithKey (c : Crypto) (k : IdentityKeys) (prv ephemeralPub tokenData : Bytes) :
    Option (Except String Bytes) :=
  match k.hash with
  | none => some (.error "Identity hash not available")
  | some salt =>
      match Token.new (c.hkdf salt (c.diffieHellman prv ephemeralPub).1 64).1 with
      | .error e => some (.error e)
      | .ok token => token.decrypt c tokenData

/-- An attempt with one of the identity's own ratchets: a value that is no key panics. -/
def decryptWithOwn (c : Crypto) (k : IdentityKeys) (ephemeralPub tokenData prv : Bytes) :
    Option (Except String Bytes) :=
  if prv.length = 32 then k.decryptWithKey c prv ephemeralPub tokenData else none

/-- The attempt with the main key, after all ratchets have failed. -/
def decryptWithMain (c : Crypto) (k : IdentityKeys) (ephemeralPub tokenData : Bytes) :
    Option (Except String Bytes) :=
  match k.encryptionPrvKey with
  | none => some (.error "Identity has no private key")
  | some prv => k.decryptWithKey c prv.1 ephemeralPub tokenData

/-- `decrypt_with_ratchets`: the destination's ratchets that have the length of a key, then
the identity's own, then the main key. -/
def decryptWithRatchets (c : Crypto) (k : IdentityKeys) (ciphertext : Bytes)
    (destRatchets : Option (List Bytes)) : Option (Except String Bytes) :=
  if ciphertext.length ≤ 32 then some (.error "Ciphertext too short")
  else
    let ephemeralPub := ciphertext.take 32
    let tokenData := ciphertext.drop 32
    match Attempts.first (k.decryptWithKey c · ephemeralPub tokenData)
        (Destination.usableRatchets destRatchets) with
    | none => none
    | some (some plaintext) => some (.ok plaintext)
    | some none =>
        match Attempts.first (k.decryptWithOwn c ephemeralPub tokenData)
            (k.ratchets.map Prod.snd) with
        | none => none
        | some (some plaintext) => some (.ok plaintext)
        | some none => k.decryptWithMain c ephemeralPub tokenData

end IdentityKeys

/-- What a `LinkHandle` reaches: the link, unless its actor has ended. -/
abbrev LinkHandle := Option Link

namespace LinkHandle

/-- `LinkHandle::encrypt`. -/
def encrypt (c : Crypto) (handle : LinkHandle) (vector : Bytes.Block 16) (plaintext : Bytes) :
    Except String Bytes :=
  match handle with
  | none => .error "Link gone (actor dead)"
  | some l =>
      if l.state ≠ .active ∧ l.state ≠ .stale then .error "Link gone (actor dead)"
      else (l.encrypt c vector plaintext).mapError fun _ => "Link gone (actor dead)"

/-- `LinkHandle::decrypt`. -/
def decrypt (c : Crypto) (handle : LinkHandle) (ciphertext : Bytes) : Except String Bytes :=
  match handle with
  | none => .error "Link gone (actor dead)"
  | some l =>
      match l.decrypt c ciphertext with
      | some (.ok plaintext) => .ok plaintext
      | _ => .error "Link gone (actor dead)"

end LinkHandle

/-- The ratchet file is read again, when the copy knows where it is. -/
def Destination.rereadRatchets (d : Destination) (cell : RatchetCell) (read : RatchetRead)
    (writes : Bool) : Destination × RatchetCell :=
  match d.ratchetsPath with
  | none => (d, cell)
  | some path => d.reloadRatchets cell path read writes

/-- `Destination`, with the keys of its identity, its token and whether the token's lock is
poisoned. -/
structure KeyedDestination where
  destination : Destination
  keys : Option IdentityKeys
  token : Option Token
  tokenPoisoned : Bool
  keys_isSome : keys.isSome = destination.identity.isSome

namespace KeyedDestination

/-- The token of a group destination. -/
def heldToken (d : KeyedDestination) : Except String Token :=
  if d.tokenPoisoned then .error "Could not acquire token lock"
  else
    match d.token with
    | none => .error "No private key held by GROUP destination. Did you create or load one?"
    | some token => .ok token

/-- `encrypt`, with what the sender knows of the destination's ratchets and with the runtime
links. -/
def encrypt (c : Crypto) (d : KeyedDestination) (links : Bytes → Option LinkHandle)
    (known : KnownRatchets) (now : Nat) (ephemeral : Bytes.Block 32) (vector : Bytes.Block 16)
    (plaintext : Bytes) : Except String Bytes :=
  match d.destination.destType with
  | .plain => .ok plaintext
  | .single =>
      match d.keys with
      | none => .error "No identity for encryption"
      | some keys =>
          keys.encryptWithRatchet c ephemeral vector plaintext (known.getRatchet now).1
  | .group => d.heldToken.bind fun token => token.encrypt c vector plaintext
  | .link =>
      match links d.destination.hash with
      | none => .error "No runtime link found for destination"
      | some handle => handle.encrypt c vector plaintext

/-- `decrypt` of a single destination. After a failure the ratchet file is read again. -/
def decryptSingle (c : Crypto) (d : KeyedDestination) (cell : RatchetCell) (ciphertext : Bytes)
    (read : RatchetRead) (writes : Bool) :
    Option (Except String Bytes × Destination × RatchetCell) :=
  let destination := d.destination.synced cell.shared
  match d.keys with
  | none => some (.error "No identity for decryption", destination, cell)
  | some keys =>
      match keys.decryptWithRatchets c ciphertext destination.ratchets with
      | none => none
      | some (.ok plaintext) => some (.ok plaintext, destination, cell)
      | some (.error e) =>
          if destination.ratchets.isNone then some (.error e, destination, cell)
          else
            let reloaded := destination.rereadRatchets cell read writes
            (keys.decryptWithRatchets c ciphertext reloaded.1.ratchets).map (·, reloaded)

/-- `decrypt`, with the runtime links. -/
def decrypt (c : Crypto) (d : KeyedDestination) (links : Bytes → Option LinkHandle)
    (cell : RatchetCell) (ciphertext : Bytes) (read : RatchetRead) (writes : Bool) :
    Option (Except String Bytes × Destination × RatchetCell) :=
  match d.destination.destType with
  | .plain => some (.ok ciphertext, d.destination, cell)
  | .single => d.decryptSingle c cell ciphertext read writes
  | .group =>
      match d.heldToken with
      | .error e => some (.error e, d.destination, cell)
      | .ok token => (token.decrypt c ciphertext).map (·, d.destination, cell)
  | .link =>
      match links d.destination.hash with
      | none => some (.error "No runtime link found for destination", d.destination, cell)
      | some handle => some (handle.decrypt c ciphertext, d.destination, cell)

end KeyedDestination

end Reticulum
