import Reticulum.Destination.Encryption
import Reticulum.Lib.Results

/-!
# Decryption returns, and inverts encryption

`Token::decrypt` takes the vector and the ciphertext out of a token once its HMAC has
matched. Whoever knows the key can give a matching HMAC to fewer bytes than a vector,
and the slice is then out of range. Such tokens are the only ones on which decryption
does not return. What was encrypted for one of the keys of a receiver is decrypted by
it, whichever other keys are tried before.

## Implementation notes

The keys of HMAC are those of one length, since shorter ones are filled up with zeros.
HKDF is spelled out by HMAC, so that half of a derived key determines the other half.
-/

namespace Reticulum

/-- What is assumed of AES-CBC, key agreement, HMAC and HKDF. -/
structure Crypto.Lawful (c : Crypto) : Prop where
  aesDecrypt_aesEncrypt : ∀ (key : Bytes) (vector : Bytes.Block 16) (plaintext : Bytes),
    key.length = 32 →
      c.aesDecrypt key vector.1 (c.aesEncrypt key vector plaintext) = some plaintext
  diffieHellman_comm : ∀ a b : Bytes.Block 32,
    c.diffieHellman a.1 (c.publicKey b.1).1 = c.diffieHellman b.1 (c.publicKey a.1).1
  /-- bytes have the same HMAC only under the same key -/
  hmac_key : ∀ (a b : Bytes.Block 32) (data : Bytes), c.hmac a.1 data = c.hmac b.1 data → a = b
  /-- two blocks of HKDF with empty info -/
  hkdf_eq : ∀ salt key : Bytes, (c.hkdf salt key 64).1 =
    (c.hmac (c.hmac salt key).1 [1]).1 ++
      (c.hmac (c.hmac salt key).1 ((c.hmac (c.hmac salt key).1 [1]).1 ++ [2])).1

namespace Token

variable {c : Crypto} {token token' : Token} {data ciphertext plaintext : Bytes}
  {vector : Bytes.Block 16}

/-- A token that is authentic but too short for a vector. -/
def Truncated (c : Crypto) (signingKey data : Bytes) : Prop :=
  32 < data.length ∧ data.length < 48 ∧
    (c.hmac signingKey (data.take (data.length - 32))).1 = data.drop (data.length - 32)

theorem decrypt_eq_none_iff : token.decrypt c data = none ↔ Truncated c token.signingKey data := by
  simp only [decrypt, Truncated, List.length_take]
  split
  · rename_i hshort
    exact ⟨fun h => (by cases h), fun h => absurd h.1 (Nat.not_lt.mpr hshort)⟩
  · rename_i hlong
    split
    · rename_i hmac
      exact ⟨fun h => (by cases h), fun h => absurd h.2.2 hmac⟩
    · rename_i hmac
      split
      · rename_i hsigned
        exact ⟨fun _ => ⟨by omega, by omega, not_not.mp hmac⟩, fun _ => rfl⟩
      · rename_i hsigned
        refine ⟨fun h => ?_, fun h => absurd h.2.1 (by omega)⟩
        split at h
        · cases h
        · split at h <;> cases h

theorem le_length_of_decrypt (h : token.decrypt c data = some (.ok plaintext)) :
    48 ≤ data.length := by
  simp only [decrypt, List.length_take] at h
  split at h
  · cases h
  · split at h
    · cases h
    · split at h
      · cases h
      · omega

/-- A derived key gives a token. -/
theorem new_block (key : Bytes.Block 64) :
    Token.new key.1 = .ok { signingKey := key.1.take 32, encryptionKey := key.1.drop 32 } := by
  rw [Token.new, if_neg (by rw [key.2]; decide), if_pos key.2]

theorem encrypt_eq_ok (h : token.encrypt c vector plaintext = .ok ciphertext) :
    token.encryptionKey.length = 32 ∧ ∃ signed : Bytes,
      signed = vector.1 ++ c.aesEncrypt token.encryptionKey vector plaintext ∧
      ciphertext = signed ++ (c.hmac token.signingKey signed).1 := by
  unfold encrypt at h
  split at h
  · cases h
  · rename_i hlength
    exact ⟨not_not.mp hlength, _, rfl, (Except.ok.inj h).symm⟩

/-- Taking apart what was signed and its HMAC. -/
theorem take_drop_signed (signed : Bytes) (tag : Bytes.Block 32) :
    (signed ++ tag.1).take ((signed ++ tag.1).length - 32) = signed ∧
      (signed ++ tag.1).drop ((signed ++ tag.1).length - 32) = tag.1 := by
  have hlength : (signed ++ tag.1).length - 32 = signed.length := by
    rw [List.length_append, tag.2, Nat.add_sub_cancel]
  rw [hlength]
  exact ⟨List.take_left, List.drop_left⟩

/-- A token decrypts what it has encrypted. -/
theorem decrypt_encrypt (hc : c.Lawful) (h : token.encrypt c vector plaintext = .ok ciphertext) :
    token.decrypt c ciphertext = some (.ok plaintext) := by
  obtain ⟨hkey, signed, hsigned, rfl⟩ := encrypt_eq_ok h
  obtain ⟨htake, hdrop⟩ := take_drop_signed signed (c.hmac token.signingKey signed)
  have hsignedLength : 16 ≤ signed.length := by
    rw [hsigned, List.length_append, vector.2]
    omega
  have hlength : (signed ++ (c.hmac token.signingKey signed).1).length = signed.length + 32 := by
    rw [List.length_append, (c.hmac token.signingKey signed).2]
  have hvector : (signed ++ (c.hmac token.signingKey signed).1).take 16 = vector.1 := by
    rw [List.take_append_of_le_length hsignedLength, hsigned, List.take_left' vector.2]
  have hbody : signed.drop 16 = c.aesEncrypt token.encryptionKey vector plaintext := by
    rw [hsigned, List.drop_left' vector.2]
  unfold decrypt
  rw [if_neg (by omega)]
  simp only [htake, hdrop, ne_eq, not_true_eq_false, if_false]
  rw [if_neg (by omega), if_neg (not_not.mpr hkey), hvector, hbody,
    hc.aesDecrypt_aesEncrypt _ _ _ hkey]

/-- A token with another HMAC key rejects it. -/
theorem decrypt_other (h : token.encrypt c vector plaintext = .ok ciphertext)
    (hne : ∀ signed, c.hmac token'.signingKey signed ≠ c.hmac token.signingKey signed) :
    token'.decrypt c ciphertext = some (.error "Token HMAC was invalid") := by
  obtain ⟨-, signed, hsigned, rfl⟩ := encrypt_eq_ok h
  obtain ⟨htake, hdrop⟩ := take_drop_signed signed (c.hmac token.signingKey signed)
  have hlength : 48 ≤ (signed ++ (c.hmac token.signingKey signed).1).length := by
    rw [List.length_append, (c.hmac token.signingKey signed).2, hsigned, List.length_append,
      vector.2]
    omega
  unfold decrypt
  rw [if_neg (by omega)]
  simp only [htake, hdrop]
  rw [if_pos fun heq => hne signed (Subtype.ext heq)]

end Token

/-- The key of a token, from the salt and the shared secret. -/
def Crypto.derivedKey (c : Crypto) (salt prv pub : Bytes) : Bytes.Block 64 :=
  c.hkdf salt (c.diffieHellman prv pub).1 64

/-- The first half of a derived key, for the HMAC. -/
def Crypto.signingKey (c : Crypto) (salt prv pub : Bytes) : Bytes.Block 32 :=
  (c.derivedKey salt prv pub).take 32 (by decide)

/-- The token of a derived key. -/
def Crypto.derivedToken (c : Crypto) (salt prv pub : Bytes) : Token where
  signingKey := (c.signingKey salt prv pub).1
  encryptionKey := (c.derivedKey salt prv pub).1.drop 32

/-- Derived keys that agree on their first half are equal. -/
theorem Crypto.Lawful.derivedKey_eq {c : Crypto} (hc : c.Lawful) {salt prv pub prv' pub' : Bytes}
    (h : c.signingKey salt prv pub = c.signingKey salt prv' pub') :
    c.derivedKey salt prv pub = c.derivedKey salt prv' pub' := by
  have hfirst : ∀ shared : Bytes, (c.hkdf salt shared 64).1.take 32 =
      (c.hmac (c.hmac salt shared).1 [1]).1 := by
    intro shared
    rw [hc.hkdf_eq, List.take_left' (c.hmac (c.hmac salt shared).1 [1]).2]
  have hhalf := congrArg Subtype.val h
  simp only [signingKey, Bytes.Block.take, derivedKey, hfirst] at hhalf
  have hprk := congrArg Subtype.val (hc.hmac_key _ _ _ (Subtype.ext hhalf))
  apply Subtype.ext
  rw [derivedKey, derivedKey, hc.hkdf_eq, hc.hkdf_eq, hprk]

/-! ## An identity -/

namespace IdentityKeys

variable {c : Crypto} {k sender : IdentityKeys} {prv pub salt tokenData ciphertext : Bytes}
  {plaintext body : Bytes} {vector : Bytes.Block 16} {ephemeral : Bytes.Block 32}
  {ratchet : Option Bytes} {destRatchets : Option (List Bytes)}

theorem decryptWithKey_eq (hhash : k.hash = some salt) (prv pub tokenData : Bytes) :
    k.decryptWithKey c prv pub tokenData = (c.derivedToken salt prv pub).decrypt c tokenData := by
  simp only [decryptWithKey, hhash]
  rw [← Crypto.derivedKey, Token.new_block]
  rfl

theorem decryptWithKey_noHash (hhash : k.hash = none) (prv pub tokenData : Bytes) :
    k.decryptWithKey c prv pub tokenData = some (.error "Identity hash not available") := by
  simp only [decryptWithKey, hhash]

/-- The ciphertext holds a token that is authentic under a key but too short for a vector. -/
def TruncatedFor (c : Crypto) (k : IdentityKeys) (ciphertext prv : Bytes) : Prop :=
  ∃ salt ∈ k.hash, Token.Truncated c (c.signingKey salt prv (ciphertext.take 32)).1
    (ciphertext.drop 32)

theorem decryptWithKey_eq_none_iff :
    k.decryptWithKey c prv (ciphertext.take 32) (ciphertext.drop 32) = none ↔
      k.TruncatedFor c ciphertext prv := by
  unfold TruncatedFor
  cases hhash : k.hash with
  | none =>
      rw [decryptWithKey_noHash hhash]
      exact ⟨fun h => (by cases h), fun ⟨_, h, _⟩ => (by cases h)⟩
  | some salt =>
      rw [decryptWithKey_eq hhash, Token.decrypt_eq_none_iff]
      exact ⟨fun h => ⟨salt, rfl, h⟩, fun ⟨_, hsalt, h⟩ => Option.some.inj hsalt ▸ h⟩

theorem le_length_of_decryptWithKey
    (h : k.decryptWithKey c prv pub tokenData = some (.ok plaintext)) : 48 ≤ tokenData.length := by
  cases hhash : k.hash with
  | none =>
      rw [decryptWithKey_noHash hhash] at h
      cases h
  | some salt =>
      rw [decryptWithKey_eq hhash] at h
      exact Token.le_length_of_decrypt h

/-- The identity's own ratchets and its main key. -/
def ownKeys (k : IdentityKeys) : List Bytes :=
  k.ratchets.map Prod.snd ++ (k.encryptionPrvKey.map Subtype.val).toList

/-- The keys that are tried, in this order. -/
def triedKeys (k : IdentityKeys) (destRatchets : Option (List Bytes)) : List Bytes :=
  Destination.usableRatchets destRatchets ++ k.ownKeys

/-- No conversion of an own ratchet fails. -/
theorem decryptWithOwn_eq (pub tokenData : Bytes) (hprv : prv ∈ k.ratchets.map Prod.snd) :
    k.decryptWithOwn c pub tokenData prv = k.decryptWithKey c prv pub tokenData := by
  obtain ⟨entry, hentry, rfl⟩ := List.mem_map.mp hprv
  exact if_pos (k.ratchets_length entry hentry)

/-- The search through all keys at once, up to the text of an error. -/
theorem decryptWithRatchets_cases (c : Crypto) (k : IdentityKeys) (ciphertext : Bytes)
    (destRatchets : Option (List Bytes)) :
    (k.decryptWithRatchets c ciphertext destRatchets = none ∧ 32 < ciphertext.length ∧
      ∃ prv ∈ k.triedKeys destRatchets,
        k.decryptWithKey c prv (ciphertext.take 32) (ciphertext.drop 32) = none) ∨
    (∃ plaintext, k.decryptWithRatchets c ciphertext destRatchets = some (.ok plaintext) ∧
      ∃ prv ∈ k.triedKeys destRatchets,
        k.decryptWithKey c prv (ciphertext.take 32) (ciphertext.drop 32) =
          some (.ok plaintext)) ∨
    (∃ e, k.decryptWithRatchets c ciphertext destRatchets = some (.error e) ∧
      (32 < ciphertext.length → ∀ prv ∈ k.triedKeys destRatchets,
        ∃ e, k.decryptWithKey c prv (ciphertext.take 32) (ciphertext.drop 32) =
          some (.error e))) := by
  unfold decryptWithRatchets triedKeys ownKeys
  split
  · rename_i hshort
    exact .inr (.inr ⟨_, rfl, fun h => absurd h (Nat.not_lt.mpr hshort)⟩)
  rename_i hlong
  have hlong' : 32 < ciphertext.length := Nat.lt_of_not_le hlong
  dsimp only
  obtain ⟨h, prv, hprv, hnone⟩ | ⟨p, h, prv, hprv, hok⟩ | ⟨h, hdest⟩ :=
    Attempts.first_cases
      (fun prv => k.decryptWithKey c prv (ciphertext.take 32) (ciphertext.drop 32))
      (Destination.usableRatchets destRatchets)
  · rw [h]
    exact .inl ⟨rfl, hlong', prv, List.mem_append_left _ hprv, hnone⟩
  · rw [h]
    exact .inr (.inl ⟨p, rfl, prv, List.mem_append_left _ hprv, hok⟩)
  rw [h]
  dsimp only
  obtain ⟨h, prv, hprv, hnone⟩ | ⟨p, h, prv, hprv, hok⟩ | ⟨h, hown⟩ :=
    Attempts.first_cases (k.decryptWithOwn c (ciphertext.take 32) (ciphertext.drop 32))
      (k.ratchets.map Prod.snd)
  · rw [h]
    rw [decryptWithOwn_eq _ _ hprv] at hnone
    exact .inl ⟨rfl, hlong', prv, List.mem_append_right _ (List.mem_append_left _ hprv), hnone⟩
  · rw [h]
    rw [decryptWithOwn_eq _ _ hprv] at hok
    exact .inr (.inl ⟨p, rfl, prv, List.mem_append_right _ (List.mem_append_left _ hprv), hok⟩)
  rw [h]
  dsimp only [decryptWithMain]
  have hratchets : ∀ prv ∈ k.ratchets.map Prod.snd,
      ∃ e, k.decryptWithKey c prv (ciphertext.take 32) (ciphertext.drop 32) =
        some (.error e) := by
    intro prv hprv
    rw [← decryptWithOwn_eq _ _ hprv]
    exact hown prv hprv
  cases k.encryptionPrvKey with
  | none =>
      refine .inr (.inr ⟨_, rfl, fun _ => List.forall_mem_append.mpr ⟨hdest, ?_⟩⟩)
      exact List.forall_mem_append.mpr ⟨hratchets, fun _ h => absurd h List.not_mem_nil⟩
  | some main =>
      have hmain : main.1 ∈ Destination.usableRatchets destRatchets ++
          (k.ratchets.map Prod.snd ++ (Option.map Subtype.val (some main)).toList) :=
        List.mem_append_right _ (List.mem_append_right _ List.mem_cons_self)
      match hkey : k.decryptWithKey c main.1 (ciphertext.take 32) (ciphertext.drop 32) with
      | none => exact .inl ⟨hkey, hlong', main.1, hmain, hkey⟩
      | some (.ok p) => exact .inr (.inl ⟨p, hkey, main.1, hmain, hkey⟩)
      | some (.error e) =>
          refine .inr (.inr ⟨e, hkey, fun _ => List.forall_mem_append.mpr ⟨hdest, ?_⟩⟩)
          refine List.forall_mem_append.mpr ⟨hratchets, fun prv hprv => ?_⟩
          rw [List.mem_singleton.mp hprv]
          exact ⟨e, hkey⟩

/-- A ciphertext with a token that is too short for a vector is decrypted with no key. -/
theorem decryptWithRatchets_of_short (h : (ciphertext.drop 32).length < 48) (plaintext : Bytes) :
    k.decryptWithRatchets c ciphertext destRatchets ≠ some (.ok plaintext) := by
  intro hok
  obtain ⟨heq, -⟩ | ⟨p, -, prv, -, hkey⟩ | ⟨e, heq, -⟩ :=
    decryptWithRatchets_cases c k ciphertext destRatchets
  · rw [heq] at hok
    cases hok
  · exact absurd (le_length_of_decryptWithKey hkey) (Nat.not_le.mpr h)
  · rw [heq] at hok
    cases hok

/-- Decryption does not return exactly when one of the keys that are tried makes the token an
authentic one that is too short. -/
theorem decryptWithRatchets_eq_none_iff :
    k.decryptWithRatchets c ciphertext destRatchets = none ↔
      ∃ prv ∈ k.triedKeys destRatchets, k.TruncatedFor c ciphertext prv := by
  constructor
  · intro hnone
    obtain ⟨-, -, prv, hprv, h⟩ | ⟨p, heq, -⟩ | ⟨e, heq, -⟩ :=
      decryptWithRatchets_cases c k ciphertext destRatchets
    · exact ⟨prv, hprv, decryptWithKey_eq_none_iff.mp h⟩
    · rw [heq] at hnone
      cases hnone
    · rw [heq] at hnone
      cases hnone
  · rintro ⟨prv, hprv, h⟩
    have htoken : 32 < (ciphertext.drop 32).length ∧ (ciphertext.drop 32).length < 48 := by
      obtain ⟨salt, -, hmin, hmax, -⟩ := h
      exact ⟨hmin, hmax⟩
    have hlength : 32 < ciphertext.length := by
      have := htoken.1
      rw [List.length_drop] at this
      omega
    obtain ⟨heq, -⟩ | ⟨p, heq, -⟩ | ⟨e, -, hall⟩ :=
      decryptWithRatchets_cases c k ciphertext destRatchets
    · exact heq
    · exact absurd heq (decryptWithRatchets_of_short htoken.2 p)
    · obtain ⟨e, he⟩ := hall hlength prv hprv
      rw [decryptWithKey_eq_none_iff.mpr h] at he
      cases he

/-- Ratchets that are no keys are passed over. -/
theorem decryptWithRatchets_usableRatchets (ciphertext : Bytes)
    (destRatchets : Option (List Bytes)) :
    k.decryptWithRatchets c ciphertext (some (Destination.usableRatchets destRatchets)) =
      k.decryptWithRatchets c ciphertext destRatchets := by
  have husable : Destination.usableRatchets (some (Destination.usableRatchets destRatchets)) =
      Destination.usableRatchets destRatchets := by
    unfold Destination.usableRatchets
    rw [Option.getD_some, List.filter_filter]
    simp only [Bool.and_self]
  unfold decryptWithRatchets
  rw [husable]

/-- What was encrypted: the ephemeral key and a token for the key that is derived from it. -/
def Seals (c : Crypto) (salt pub plaintext ciphertext : Bytes) (ephemeral : Bytes.Block 32) :
    Prop :=
  ∃ vector body, (c.derivedToken salt ephemeral.1 pub).encrypt c vector plaintext = .ok body ∧
    ciphertext = (c.publicKey ephemeral.1).1 ++ body

theorem seals_encryptWithRatchet
    (h : sender.encryptWithRatchet c ephemeral vector plaintext ratchet = .ok ciphertext) :
    ∃ salt pub, sender.hash = some salt ∧ sender.targetPub ratchet = .ok pub ∧
      Seals c salt pub plaintext ciphertext ephemeral := by
  unfold encryptWithRatchet at h
  cases hhash : sender.hash with
  | none =>
      rw [hhash] at h
      cases h
  | some salt =>
      rw [hhash] at h
      obtain ⟨pub, hpub, h⟩ := Results.bind_eq_ok.mp h
      rw [← Crypto.derivedKey, Token.new_block] at h
      obtain ⟨token, htoken, h⟩ := Results.bind_eq_ok.mp h
      obtain rfl := Except.ok.inj htoken
      obtain ⟨body, hbody, h⟩ := Results.bind_eq_ok.mp h
      exact ⟨salt, pub, rfl, hpub, vector, body, hbody, (Except.ok.inj h).symm⟩

/-- Any key opens a ciphertext correctly or not at all, and the key that it was encrypted to
opens it. -/
theorem decryptWithKey_of_seals (hc : c.Lawful) (hhash : k.hash = some salt)
    (h : Seals c salt pub plaintext ciphertext ephemeral) (prv : Bytes) :
    (k.decryptWithKey c prv (ciphertext.take 32) (ciphertext.drop 32) = some (.ok plaintext)) ∨
    (c.signingKey salt prv (c.publicKey ephemeral.1).1 ≠ c.signingKey salt ephemeral.1 pub ∧
      ∃ e, k.decryptWithKey c prv (ciphertext.take 32) (ciphertext.drop 32) =
        some (.error e)) := by
  obtain ⟨vector, body, hbody, rfl⟩ := h
  have htake : ((c.publicKey ephemeral.1).1 ++ body).take 32 = (c.publicKey ephemeral.1).1 :=
    List.take_left' (c.publicKey ephemeral.1).2
  have hdrop : ((c.publicKey ephemeral.1).1 ++ body).drop 32 = body :=
    List.drop_left' (c.publicKey ephemeral.1).2
  rw [htake, hdrop, decryptWithKey_eq hhash]
  by_cases hkey : c.signingKey salt prv (c.publicKey ephemeral.1).1 =
      c.signingKey salt ephemeral.1 pub
  · have htoken : c.derivedToken salt prv (c.publicKey ephemeral.1).1 =
        c.derivedToken salt ephemeral.1 pub := by
      rw [Crypto.derivedToken, Crypto.derivedToken, hkey, hc.derivedKey_eq hkey]
    rw [htoken]
    exact .inl (Token.decrypt_encrypt hc hbody)
  · exact .inr ⟨hkey, _, Token.decrypt_other hbody fun signed heq =>
      hkey (hc.hmac_key _ _ signed heq)⟩

/-- The receiver has the private key of the ratchet that was used, among some ratchets or its
own, or the identity's private key when none was used. -/
def HoldsKey (c : Crypto) (sender receiver : IdentityKeys) (ratchets : List Bytes)
    (ratchet : Option Bytes) : Prop :=
  ∃ prv : Bytes.Block 32,
    match ratchet with
    | some ratchet => ratchet = (c.publicKey prv.1).1 ∧
        (prv.1 ∈ ratchets ∨ prv.1 ∈ receiver.ratchets.map Prod.snd)
    | none => sender.encryptionPubKey = some (c.publicKey prv.1) ∧
        receiver.encryptionPrvKey = some prv

theorem mem_usableRatchets {destRatchets : Option (List Bytes)} :
    prv ∈ Destination.usableRatchets destRatchets ↔
      prv ∈ destRatchets.getD [] ∧ prv.length = 32 := by
  rw [Destination.usableRatchets, List.mem_filter, beq_iff_eq]

/-- The key that was encrypted to is tried. -/
theorem HoldsKey.tried (destRatchets : Option (List Bytes))
    (h : HoldsKey c sender k (destRatchets.getD []) ratchet) :
    ∃ prv : Bytes.Block 32, sender.targetPub ratchet = .ok (c.publicKey prv.1).1 ∧
      prv.1 ∈ k.triedKeys destRatchets := by
  obtain ⟨prv, h⟩ := h
  refine ⟨prv, ?_⟩
  cases ratchet with
  | some ratchet =>
      obtain ⟨rfl, hprv⟩ := h
      refine ⟨if_pos (c.publicKey prv.1).2, ?_⟩
      rcases hprv with hprv | hprv
      · exact List.mem_append_left _ (mem_usableRatchets.mpr ⟨hprv, prv.2⟩)
      · exact List.mem_append_right _ (List.mem_append_left _ hprv)
  | none =>
      obtain ⟨hpub, hprv⟩ := h
      refine ⟨by rw [targetPub, hpub], List.mem_append_right _ (List.mem_append_right _ ?_)⟩
      rw [hprv]
      exact List.mem_cons_self

/-- A receiver that tries the key decrypts, whichever keys it tries before; with other keys it
does not decrypt to anything else. -/
theorem decryptWithRatchets_of_seals (hc : c.Lawful) (hhash : k.hash = some salt)
    (h : Seals c salt pub plaintext ciphertext ephemeral) (destRatchets : Option (List Bytes)) :
    k.decryptWithRatchets c ciphertext destRatchets = some (.ok plaintext) ∨
    (∃ e, k.decryptWithRatchets c ciphertext destRatchets = some (.error e)) ∧
      ∀ prv : Bytes.Block 32, pub = (c.publicKey prv.1).1 → prv.1 ∉ k.triedKeys destRatchets := by
  have hkeys := decryptWithKey_of_seals hc hhash h
  have hlength : 32 < ciphertext.length := by
    obtain ⟨vector, body, hbody, rfl⟩ := h
    have := Token.le_length_of_decrypt (Token.decrypt_encrypt hc hbody)
    rw [List.length_append, (c.publicKey ephemeral.1).2]
    omega
  obtain ⟨-, -, prv, -, hnone⟩ | ⟨p, heq, prv, -, hok⟩ | ⟨e, heq, hall⟩ :=
    decryptWithRatchets_cases c k ciphertext destRatchets
  · rcases hkeys prv with hok | ⟨-, e, he⟩
    · rw [hok] at hnone
      cases hnone
    · rw [he] at hnone
      cases hnone
  · rcases hkeys prv with hok' | ⟨-, e, he⟩
    · rw [hok'] at hok
      cases hok
      exact .inl heq
    · rw [he] at hok
      cases hok
  · refine .inr ⟨⟨e, heq⟩, fun prv hpub hprv => ?_⟩
    obtain ⟨e, he⟩ := hall hlength prv.1 hprv
    rcases hkeys prv.1 with hok | ⟨hne, -⟩
    · rw [hok] at he
      cases he
    · apply hne
      rw [Crypto.signingKey, Crypto.signingKey, Crypto.derivedKey, Crypto.derivedKey, hpub,
        hc.diffieHellman_comm prv ephemeral]

/-- What was encrypted for a receiver is decrypted by it. -/
theorem decryptWithRatchets_encryptWithRatchet (hc : c.Lawful) (hhash : sender.hash = k.hash)
    (h : sender.encryptWithRatchet c ephemeral vector plaintext ratchet = .ok ciphertext)
    (hholds : HoldsKey c sender k (destRatchets.getD []) ratchet) :
    k.decryptWithRatchets c ciphertext destRatchets = some (.ok plaintext) := by
  obtain ⟨salt, pub, hsalt, hpub, hseals⟩ := seals_encryptWithRatchet h
  obtain ⟨prv, htarget, htried⟩ := hholds.tried destRatchets
  rcases decryptWithRatchets_of_seals hc (hhash.symm.trans hsalt) hseals destRatchets with
    hok | ⟨-, hnone⟩
  · exact hok
  · exact absurd htried (hnone prv (Except.ok.inj (hpub.symm.trans htarget)))

end IdentityKeys

/-! ## A destination -/

/-- The ends of a link share the derived key, and decrypt for each other. -/
theorem LinkHandle.decrypt_encrypt {c : Crypto} {l l' : Link} {vector : Bytes.Block 16}
    {plaintext ciphertext : Bytes} (hc : c.Lawful) (hkey : l.derivedKey = l'.derivedKey)
    (h : LinkHandle.encrypt c (some l) vector plaintext = .ok ciphertext) :
    LinkHandle.decrypt c (some l') ciphertext = .ok plaintext := by
  simp only [LinkHandle.encrypt] at h
  split at h
  · cases h
  cases hderived : l.derivedKey with
  | none =>
      simp only [Link.encrypt, hderived] at h
      cases h
  | some key =>
      simp only [Link.encrypt, hderived] at h
      cases htoken : Token.new key with
      | error e =>
          rw [htoken] at h
          cases h
      | ok token =>
          rw [htoken] at h
          cases hencrypt : token.encrypt c vector plaintext with
          | error e =>
              simp only [Except.bind, hencrypt] at h
              cases h
          | ok body =>
              simp only [Except.bind, hencrypt, Except.mapError] at h
              obtain rfl := Except.ok.inj h
              simp only [LinkHandle.decrypt, Link.decrypt, ← hkey, hderived, htoken,
                Token.decrypt_encrypt hc hencrypt]

/-- The ratchets that decryption may try: those after it has adopted the shared ones, and
those it finds when it reads the file again. -/
def Destination.everyRatchet (d : Destination) (cell : RatchetCell) (read : RatchetRead)
    (writes : Bool) : List Bytes :=
  let d := d.synced cell.shared
  d.ratchets.getD [] ++
    if d.ratchets.isNone then [] else (d.rereadRatchets cell read writes).1.ratchets.getD []

namespace KeyedDestination

open IdentityKeys

variable {c : Crypto} {d sender : KeyedDestination} {links : Bytes → Option LinkHandle}
  {cell : RatchetCell} {read : RatchetRead} {writes : Bool} {keys : IdentityKeys}
  {ciphertext : Bytes}

theorem mem_triedKeys {prv : Bytes} {destRatchets : Option (List Bytes)} :
    prv ∈ keys.triedKeys destRatchets ↔
      (prv ∈ destRatchets.getD [] ∧ prv.length = 32) ∨ prv ∈ keys.ownKeys := by
  rw [triedKeys, List.mem_append, mem_usableRatchets]

/-- A key of the whole list is tried at once or after the file was read again. -/
theorem mem_triedKeys_everyRatchet {prv : Bytes} :
    prv ∈ keys.triedKeys (some (d.destination.everyRatchet cell read writes)) ↔
      prv ∈ keys.triedKeys (d.destination.synced cell.shared).ratchets ∨
      (d.destination.synced cell.shared).ratchets.isNone = false ∧
        prv ∈ keys.triedKeys
          ((d.destination.synced cell.shared).rereadRatchets cell read writes).1.ratchets := by
  rw [mem_triedKeys, mem_triedKeys, mem_triedKeys, Option.getD_some, Destination.everyRatchet,
    List.mem_append]
  cases (d.destination.synced cell.shared).ratchets.isNone with
  | true => simp
  | false =>
      simp only [Bool.false_eq_true, if_false, true_and]
      tauto

section

variable (hkeys : d.keys = some keys)

include hkeys

theorem decryptSingle_of_none
    (h : keys.decryptWithRatchets c ciphertext (d.destination.synced cell.shared).ratchets = none) :
    d.decryptSingle c cell ciphertext read writes = none := by
  simp only [decryptSingle, hkeys, h]

theorem decryptSingle_of_ok {plaintext : Bytes}
    (h : keys.decryptWithRatchets c ciphertext (d.destination.synced cell.shared).ratchets =
      some (.ok plaintext)) :
    d.decryptSingle c cell ciphertext read writes =
      some (.ok plaintext, d.destination.synced cell.shared, cell) := by
  simp only [decryptSingle, hkeys, h]

theorem decryptSingle_of_error {e : String}
    (h : keys.decryptWithRatchets c ciphertext (d.destination.synced cell.shared).ratchets =
      some (.error e)) :
    d.decryptSingle c cell ciphertext read writes =
      if (d.destination.synced cell.shared).ratchets.isNone then
        some (.error e, d.destination.synced cell.shared, cell)
      else
        (keys.decryptWithRatchets c ciphertext
          ((d.destination.synced cell.shared).rereadRatchets cell read writes).1.ratchets).map
            (·, (d.destination.synced cell.shared).rereadRatchets cell read writes) := by
  simp only [decryptSingle, hkeys, h]

end

/-- Decryption with the keys of a single destination does not return exactly when one of the
keys that it may try makes the token an authentic one that is too short. -/
theorem decryptSingle_eq_none_iff :
    d.decryptSingle c cell ciphertext read writes = none ↔
      ∃ keys ∈ d.keys,
        ∃ prv ∈ keys.triedKeys (some (d.destination.everyRatchet cell read writes)),
          keys.TruncatedFor c ciphertext prv := by
  cases hkeys : d.keys with
  | none =>
      simp only [decryptSingle, hkeys]
      exact ⟨fun h => (by cases h), fun ⟨_, h, _⟩ => (by cases h)⟩
  | some keys =>
      have hiff : (∃ keys' ∈ some keys,
          ∃ prv ∈ keys'.triedKeys (some (d.destination.everyRatchet cell read writes)),
            keys'.TruncatedFor c ciphertext prv) ↔
          ∃ prv ∈ keys.triedKeys (some (d.destination.everyRatchet cell read writes)),
            keys.TruncatedFor c ciphertext prv :=
        ⟨fun ⟨_, hmem, h⟩ => Option.some.inj hmem ▸ h, fun h => ⟨keys, rfl, h⟩⟩
      rw [hiff]
      simp only [mem_triedKeys_everyRatchet, or_and_right, exists_or, and_assoc]
      rw [← decryptWithRatchets_eq_none_iff]
      have hsecond : (∃ prv, (d.destination.synced cell.shared).ratchets.isNone = false ∧
          prv ∈ keys.triedKeys
            ((d.destination.synced cell.shared).rereadRatchets cell read writes).1.ratchets ∧
          keys.TruncatedFor c ciphertext prv) ↔
          (d.destination.synced cell.shared).ratchets.isNone = false ∧
          keys.decryptWithRatchets c ciphertext
            ((d.destination.synced cell.shared).rereadRatchets cell read writes).1.ratchets =
              none := by
        rw [decryptWithRatchets_eq_none_iff, exists_and_left]
      rw [hsecond]
      match hfirst : keys.decryptWithRatchets c ciphertext
          (d.destination.synced cell.shared).ratchets with
      | none => exact iff_of_true (decryptSingle_of_none hkeys hfirst) (.inl rfl)
      | some (.ok p) =>
          rw [decryptSingle_of_ok hkeys hfirst]
          refine ⟨fun h => (by cases h), ?_⟩
          rintro (h | ⟨-, h⟩)
          · cases h
          · obtain ⟨prv, -, salt, -, -, hmax, -⟩ := decryptWithRatchets_eq_none_iff.mp h
            exact absurd hfirst (decryptWithRatchets_of_short hmax p)
      | some (.error e) =>
          rw [decryptSingle_of_error hkeys hfirst]
          cases (d.destination.synced cell.shared).ratchets.isNone with
          | true => simp
          | false => simp

/-- Whether a ciphertext does not let decryption return. -/
def Truncated (c : Crypto) (d : KeyedDestination) (cell : RatchetCell) (ciphertext : Bytes)
    (read : RatchetRead) (writes : Bool) : Prop :=
  match d.destination.destType with
  | .single => ∃ keys ∈ d.keys,
      ∃ prv ∈ keys.triedKeys (some (d.destination.everyRatchet cell read writes)),
        keys.TruncatedFor c ciphertext prv
  | .group => ∃ token, d.heldToken = .ok token ∧ Token.Truncated c token.signingKey ciphertext
  | _ => False

theorem decrypt_eq_none_iff :
    d.decrypt c links cell ciphertext read writes = none ↔
      d.Truncated c cell ciphertext read writes := by
  unfold decrypt Truncated
  cases d.destination.destType with
  | single => exact decryptSingle_eq_none_iff
  | group =>
      dsimp only
      cases htoken : d.heldToken with
      | error e => exact ⟨fun h => (by cases h), fun ⟨_, h, _⟩ => (by cases h)⟩
      | ok token =>
          rw [Option.map_eq_none_iff, Token.decrypt_eq_none_iff]
          exact ⟨fun h => ⟨token, rfl, h⟩, fun ⟨_, h, htruncated⟩ => Except.ok.inj h ▸ htruncated⟩
  | plain => exact ⟨fun h => (by cases h), False.elim⟩
  | link =>
      dsimp only
      cases links d.destination.hash with
      | none => exact ⟨fun h => (by cases h), False.elim⟩
      | some handle => exact ⟨fun h => (by cases h), False.elim⟩

/-- The receiver has what decrypts the sender's ciphertext: an identity with the key that was
used, the token of the group, or the other end of the link. -/
inductive Corresponds (c : Crypto) (sender d : KeyedDestination)
    (links links' : Bytes → Option LinkHandle) (ratchets : List Bytes)
    (ratchet : Option Bytes) : Prop
  | plain (hsender : sender.destination.destType = .plain)
      (hreceiver : d.destination.destType = .plain)
  | single (hsender : sender.destination.destType = .single)
      (hreceiver : d.destination.destType = .single) (keys keys' : IdentityKeys)
      (hkeys : sender.keys = some keys) (hkeys' : d.keys = some keys')
      (hhash : keys.hash = keys'.hash) (hholds : HoldsKey c keys keys' ratchets ratchet)
  | group (hsender : sender.destination.destType = .group)
      (hreceiver : d.destination.destType = .group) (htoken : sender.heldToken = d.heldToken)
  | link (hsender : sender.destination.destType = .link)
      (hreceiver : d.destination.destType = .link) (l l' : Link)
      (hlink : links sender.destination.hash = some (some l))
      (hlink' : links' d.destination.hash = some (some l')) (hkey : l.derivedKey = l'.derivedKey)

/-- What was encrypted for a single destination is decrypted by it, at once or after the file
was read again. -/
theorem decryptSingle_encryptWithRatchet {keys' : IdentityKeys} {vector : Bytes.Block 16}
    {ephemeral : Bytes.Block 32} {plaintext : Bytes} {ratchet : Option Bytes} (hc : c.Lawful)
    (hkeys : d.keys = some keys') (hhash : keys.hash = keys'.hash)
    (h : keys.encryptWithRatchet c ephemeral vector plaintext ratchet = .ok ciphertext)
    (hholds : HoldsKey c keys keys' (d.destination.everyRatchet cell read writes) ratchet) :
    (d.decryptSingle c cell ciphertext read writes).map Prod.fst = some (.ok plaintext) := by
  obtain ⟨salt, pub, hsalt, hpub, hseals⟩ := seals_encryptWithRatchet h
  have hsalt' : keys'.hash = some salt := hhash.symm.trans hsalt
  obtain ⟨prv, htarget, htried⟩ :=
    hholds.tried (some (d.destination.everyRatchet cell read writes))
  have hprv : pub = (c.publicKey prv.1).1 := Except.ok.inj (hpub.symm.trans htarget)
  rcases decryptWithRatchets_of_seals hc hsalt' hseals
    (d.destination.synced cell.shared).ratchets with hfirst | ⟨⟨e, hfirst⟩, hnone⟩
  · rw [decryptSingle_of_ok hkeys hfirst]
    rfl
  · rcases mem_triedKeys_everyRatchet.mp htried with hmem | ⟨henabled, hmem⟩
    · exact absurd hmem (hnone prv hprv)
    · rw [decryptSingle_of_error hkeys hfirst, henabled]
      rcases decryptWithRatchets_of_seals hc hsalt' hseals
        ((d.destination.synced cell.shared).rereadRatchets cell read writes).1.ratchets with
        hsecond | ⟨-, hnone'⟩
      · rw [hsecond]
        rfl
      · exact absurd hmem (hnone' prv hprv)

/-- Decryption inverts encryption. -/
theorem decrypt_encrypt {links' : Bytes → Option LinkHandle} {known : KnownRatchets} {now : Nat}
    {vector : Bytes.Block 16} {ephemeral : Bytes.Block 32} {plaintext : Bytes} (hc : c.Lawful)
    (h : sender.encrypt c links known now ephemeral vector plaintext = .ok ciphertext)
    (hd : Corresponds c sender d links links' (d.destination.everyRatchet cell read writes)
      (known.getRatchet now).1) :
    (d.decrypt c links' cell ciphertext read writes).map Prod.fst = some (.ok plaintext) := by
  cases hd with
  | plain hsender hreceiver =>
      simp only [encrypt, hsender] at h
      obtain rfl := Except.ok.inj h
      simp only [decrypt, hreceiver]
      rfl
  | single hsender hreceiver keys keys' hkeys hkeys' hhash hholds =>
      simp only [encrypt, hsender, hkeys] at h
      simp only [decrypt, hreceiver]
      exact decryptSingle_encryptWithRatchet hc hkeys' hhash h hholds
  | group hsender hreceiver htoken =>
      simp only [encrypt, hsender] at h
      simp only [decrypt, hreceiver]
      rw [htoken] at h
      cases hheld : d.heldToken with
      | error e =>
          rw [hheld] at h
          cases h
      | ok token =>
          rw [hheld] at h
          have hencrypt : token.encrypt c vector plaintext = .ok ciphertext := h
          dsimp only
          rw [Token.decrypt_encrypt hc hencrypt]
          rfl
  | link hsender hreceiver l l' hlink hlink' hkey =>
      simp only [encrypt, hsender, hlink] at h
      simp only [decrypt, hreceiver, hlink']
      rw [LinkHandle.decrypt_encrypt hc hkey h]
      rfl

/-- The copy and the file that decryption leaves are those of `Destination.decrypt`. -/
theorem decryptSingle_simulates {result : Except String Bytes} {after : Destination × RatchetCell}
    (hkeys : d.keys = some keys)
    (h : d.decryptSingle c cell ciphertext read writes = some (result, after)) :
    (d.destination.decrypt cell
      (fun ratchets => (keys.decryptWithRatchets c ciphertext (some ratchets)).any (·.toBool))
      read writes).2 = after := by
  have hidentity : (d.destination.synced cell.shared).identity.isNone = false := by
    have hsynced : (d.destination.synced cell.shared).identity = d.destination.identity := by
      unfold Destination.synced Destination.adoptSharedRatchets
      split
      · split <;> rfl
      · rfl
    rw [hsynced, Option.isNone_eq_false_iff, ← d.keys_isSome, hkeys]
    rfl
  unfold Destination.decrypt
  simp only [hidentity, Bool.false_eq_true, if_false, decryptWithRatchets_usableRatchets]
  match hfirst : keys.decryptWithRatchets c ciphertext
      (d.destination.synced cell.shared).ratchets with
  | none =>
      rw [decryptSingle_of_none hkeys hfirst] at h
      cases h
  | some (.ok p) =>
      rw [decryptSingle_of_ok hkeys hfirst] at h
      obtain rfl := (Prod.mk.inj (Option.some.inj h)).2
      rfl
  | some (.error e) =>
      rw [decryptSingle_of_error hkeys hfirst] at h
      cases hratchets : (d.destination.synced cell.shared).ratchets.isNone with
      | true =>
          rw [hratchets] at h
          obtain rfl := (Prod.mk.inj (Option.some.inj h)).2
          simp
      | false =>
          rw [hratchets] at h
          obtain ⟨result', -, heq⟩ := Option.map_eq_some_iff.mp h
          obtain rfl := (Prod.mk.inj heq).2
          unfold Destination.rereadRatchets
          cases (d.destination.synced cell.shared).ratchetsPath with
          | none => simp [Except.toBool]
          | some path => simp [Except.toBool]

/-- Decryption of a token, for an identity and for a destination returns exactly unless a key
that is tried makes the token an authentic one that is too short for a vector, and it inverts
encryption. -/
theorem decryption_returns_and_inverts (c : Crypto) (hc : c.Lawful) :
    (∀ (token : Token) (data : Bytes),
      token.decrypt c data ≠ none ↔ ¬ Token.Truncated c token.signingKey data) ∧
    (∀ (k : IdentityKeys) (ciphertext : Bytes) (destRatchets : Option (List Bytes)),
      k.decryptWithRatchets c ciphertext destRatchets ≠ none ↔
        ∀ prv ∈ k.triedKeys destRatchets, ¬ k.TruncatedFor c ciphertext prv) ∧
    (∀ (d : KeyedDestination) (links : Bytes → Option LinkHandle) (cell : RatchetCell)
      (ciphertext : Bytes) (read : RatchetRead) (writes : Bool),
      d.decrypt c links cell ciphertext read writes ≠ none ↔
        ¬ d.Truncated c cell ciphertext read writes) ∧
    (∀ (token : Token) (vector : Bytes.Block 16) (plaintext ciphertext : Bytes),
      token.encrypt c vector plaintext = .ok ciphertext →
        token.decrypt c ciphertext = some (.ok plaintext)) ∧
    (∀ (sender k : IdentityKeys) (ephemeral : Bytes.Block 32) (vector : Bytes.Block 16)
      (plaintext ciphertext : Bytes) (ratchet : Option Bytes) (destRatchets : Option (List Bytes)),
      sender.encryptWithRatchet c ephemeral vector plaintext ratchet = .ok ciphertext →
      sender.hash = k.hash → HoldsKey c sender k (destRatchets.getD []) ratchet →
        k.decryptWithRatchets c ciphertext destRatchets = some (.ok plaintext)) ∧
    (∀ (sender d : KeyedDestination) (links links' : Bytes → Option LinkHandle)
      (known : KnownRatchets) (now : Nat) (ephemeral : Bytes.Block 32) (vector : Bytes.Block 16)
      (plaintext ciphertext : Bytes) (cell : RatchetCell) (read : RatchetRead) (writes : Bool),
      sender.encrypt c links known now ephemeral vector plaintext = .ok ciphertext →
      Corresponds c sender d links links' (d.destination.everyRatchet cell read writes)
        (known.getRatchet now).1 →
        (d.decrypt c links' cell ciphertext read writes).map Prod.fst = some (.ok plaintext)) := by
  refine ⟨fun token data => not_congr Token.decrypt_eq_none_iff,
    fun k ciphertext destRatchets => ?_,
    fun d links cell ciphertext read writes => not_congr decrypt_eq_none_iff,
    fun token vector plaintext ciphertext h => Token.decrypt_encrypt hc h, ?_, ?_⟩
  · rw [ne_eq, decryptWithRatchets_eq_none_iff]
    simp only [not_exists, not_and]
  · intro sender k ephemeral vector plaintext ciphertext ratchet destRatchets h hhash hholds
    exact decryptWithRatchets_encryptWithRatchet hc hhash h hholds
  · intro sender d links links' known now ephemeral vector plaintext ciphertext cell read writes
      h hd
    exact decrypt_encrypt hc h hd

/-- The sum of two blocks, byte by byte. -/
def addBlock (a b : Bytes.Block 32) : Bytes.Block 32 :=
  ⟨List.zipWith (· + ·) a.1 b.1, by rw [List.length_zipWith, a.2, b.2, Nat.min_self]⟩

theorem addBlock_comm (a b : Bytes.Block 32) : addBlock a b = addBlock b a :=
  Subtype.ext (List.zipWith_comm_of_comm fun x y => UInt8.add_comm x y)

theorem addBlock_right_cancel {a b m : Bytes.Block 32} (h : addBlock a m = addBlock b m) :
    a = b := by
  have hcancel : ∀ x y z : Bytes, x.length = z.length → y.length = z.length →
      List.zipWith (· + ·) x z = List.zipWith (· + ·) y z → x = y := by
    intro x y z
    induction z generalizing x y with
    | nil =>
        intro hx hy _
        rw [List.length_eq_zero_iff.mp hx, List.length_eq_zero_iff.mp hy]
    | cons n z ih =>
        intro hx hy heq
        match x, y with
        | u :: x, v :: y =>
            obtain ⟨hhead, htail⟩ := List.cons.inj heq
            rw [(UInt8.add_left_inj n).mp hhead,
              ih x y (Nat.succ.inj hx) (Nat.succ.inj hy) htail]
  exact Subtype.ext (hcancel a.1 b.1 m.1 (a.2.trans m.2.symm) (b.2.trans m.2.symm)
    (congrArg Subtype.val h))

/-- A stand-in for the cryptographic crates in which keys are added to what they authenticate
and to each other. -/
def additiveCrypto : Crypto :=
  let hmac := fun key data => addBlock (Link.pad 32 key) (Link.pad 32 data)
  { Link.sampleCrypto [] with
    diffieHellman := fun a b => addBlock (Link.pad 32 a) (Link.pad 32 b)
    hmac := hmac
    hkdf := fun salt key n =>
      Link.pad n ((hmac (hmac salt key).1 [1]).1 ++
        (hmac (hmac salt key).1 ((hmac (hmac salt key).1 [1]).1 ++ [2])).1) }

theorem pad_block {n : Nat} (b : Bytes.Block n) : Link.pad n b.1 = b :=
  Subtype.ext (List.take_left' b.2)

theorem pad_append (a b : Bytes.Block 32) : (Link.pad 64 (a.1 ++ b.1)).1 = a.1 ++ b.1 :=
  List.take_left' (by rw [List.length_append, a.2, b.2])

theorem additiveCrypto_lawful : additiveCrypto.Lawful where
  aesDecrypt_aesEncrypt _ _ _ _ := rfl
  diffieHellman_comm a b := by
    change addBlock (Link.pad 32 a.1) (Link.pad 32 (Link.pad 32 b.1).1) =
      addBlock (Link.pad 32 b.1) (Link.pad 32 (Link.pad 32 a.1).1)
    rw [pad_block, pad_block, pad_block, pad_block]
    exact addBlock_comm a b
  hmac_key a b data h := by
    have h' := addBlock_right_cancel h
    rwa [pad_block, pad_block] at h'
  hkdf_eq _ _ := pad_append _ _

/-- An identity with a private key. -/
def soleKey : IdentityKeys where
  encryptionPrvKey := some (Link.pad 32 [5])
  encryptionPubKey := some (Link.pad 32 [5])
  hash := some [9]
  ratchets := []
  ratchets_length := fun _ h => absurd h List.not_mem_nil

/-- A destination without ratchets. -/
def soleDestination : KeyedDestination where
  destination := { freshlyEnabled 1 with ratchets := none }
  keys := some soleKey
  token := none
  tokenPoisoned := false
  keys_isSome := rfl

def emptyCell : RatchetCell where
  shared := { ratchets := none, latestRatchetTime := 0, generation := 0 }
  files := []

/-- One byte, with the HMAC of a key that a sender shares with the identity. -/
def oneByteToken : Bytes :=
  [7] ++ (additiveCrypto.hmac (additiveCrypto.signingKey [9] [3] (Link.pad 32 [5]).1).1 [7]).1

/-- The token behind the sender's ephemeral key. -/
def oneByteCiphertext : Bytes := (Link.pad 32 [3]).1 ++ oneByteToken

/-- Encryption to the older of two ratchets, and decryption. -/
theorem decryption_returns_and_inverts_ratchet : ∃ ciphertext,
    soleKey.encryptWithRatchet additiveCrypto (Link.pad 32 [3]) (Link.pad 16 []) [1, 2, 3]
      (some (Link.pad 32 [6]).1) = .ok ciphertext ∧
    soleKey.decryptWithRatchets additiveCrypto ciphertext
      (some [(Link.pad 32 [7]).1, (Link.pad 32 [6]).1]) = some (.ok [1, 2, 3]) :=
  ⟨_, rfl, (decryption_returns_and_inverts additiveCrypto additiveCrypto_lawful).2.2.2.2.1
    soleKey soleKey (Link.pad 32 [3]) (Link.pad 16 []) [1, 2, 3] _ (some (Link.pad 32 [6]).1)
    (some [(Link.pad 32 [7]).1, (Link.pad 32 [6]).1]) rfl rfl
    ⟨Link.pad 32 [6], rfl, .inl (List.mem_cons_of_mem _ List.mem_cons_self)⟩⟩

/-- The sender of one byte with a correct HMAC: the slice for the vector is out of range in the
token, for the identity and for the destination. -/
theorem decryption_returns_false : additiveCrypto.Lawful ∧
    oneByteToken.length = 33 ∧
    (additiveCrypto.derivedToken [9] [3] (Link.pad 32 [5]).1).decrypt additiveCrypto oneByteToken =
      none ∧
    soleKey.decryptWithRatchets additiveCrypto oneByteCiphertext none = none ∧
    soleDestination.decrypt additiveCrypto (fun _ => none) emptyCell oneByteCiphertext
      .unreadable false = none := by
  refine ⟨additiveCrypto_lawful, ?_, ?_, ?_, ?_⟩
  · rfl
  · rfl
  · rfl
  · rfl

end KeyedDestination

end Reticulum
