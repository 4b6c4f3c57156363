import DartProtocol.CodecKeys
import DartProtocol.ClientState

/-!
# A concrete library that meets the assumptions

The cryptographic library is a parameter of the model, and what results assume of it is collected in
`Crypto.Lawful`.  `sumCrypto` is a library that meets these assumptions, so that they are not
contradictory and runs of the model can be evaluated: bytes are added up where the real library
hashes, the cipher is the identity with a checksum of all its arguments as tag, and nothing is
compressed.  A public key is valid when it has the 65 bytes of an uncompressed point.
-/

namespace DartProtocol

open Buffer

/-- The checksum that stands for a MAC. -/
def checksum (n : ℕ) (parts : List Buffer) : Buffer :=
  bytesBE n (parts.foldl (fun acc b => acc * 3 + natBE b) 0)

/-- The checksum that stands for a hash, with the digits that change first in front. -/
def sumHash (data : Buffer) : Buffer := (checksum 32 [data]).reverse

def sumCrypto : Crypto where
  hmac key data := checksum 32 [key, data]
  sha256 data := sumHash data
  gcmEncrypt key nonce aad plain := (plain, checksum 16 [key, nonce, aad, plain])
  gcmDecrypt key nonce aad encrypted tag :=
    if tag = checksum 16 [key, nonce, aad, encrypted] then some encrypted else none
  getPublicKey privateKey := privateKey
  computeSecret privateKey peerPubKey :=
    if peerPubKey.length = 65 then
      some (bytesBE 32 (natBE privateKey + natBE peerPubKey))
    else none
  deflateRaw payload _ := payload
  inflateRaw data _ := some data

theorem checksum_length (n : ℕ) (parts : List Buffer) : (checksum n parts).length = n := by
  rw [checksum, length_bytesBE]

theorem sumHash_length (data : Buffer) : (sumHash data).length = 32 := by
  rw [sumHash, List.length_reverse, checksum_length]

/-- **The assumptions are consistent.** -/
theorem sumCrypto_lawful : sumCrypto.Lawful where
  hmac_length := by
    intro key data
    show (checksum 32 [key, data]).length = 32
    rw [checksum_length]
  sha256_length := by
    intro data
    simp only [sumCrypto, sumHash_length]
  tag_length := by
    intro key nonce aad plain
    show (checksum 16 [key, nonce, aad, plain]).length = 16
    rw [checksum_length]
  decrypt_encrypt := by
    intro key nonce aad plain _
    simp [sumCrypto]
  inflate_deflate := by
    intro payload dict
    rfl

theorem sumCrypto_lengthPreserving : LengthPreserving sumCrypto := fun _ _ _ _ => rfl

/-- A client whose private key is the 65 bytes of its id, and whose `i`-th draw is the number of the
draw. -/
def sumIdentity (senderId : ℕ) : Identity where
  senderId := senderId
  privateKey := bytesBE 65 senderId
  random i n := bytesBE n (1000 * senderId + i)

theorem sumIdentity_lawful (senderId : ℕ) : (sumIdentity senderId).Lawful := by
  intro i n
  show (bytesBE n (1000 * senderId + i)).length = n
  rw [length_bytesBE]

/-- A roster of clients with these identities. -/
def sumRoster (ids : List ℕ) : List RosterEntry := ids.map fun i => ⟨i, bytesBE 65 i⟩

/-- The pairwise key of two of these identities. -/
def sumPairwise (i j : ℕ) : Buffer :=
  (pairwiseKey sumCrypto (bytesBE 65 i) (bytesBE 65 j)).getD []

/-- Another public key.  Its number is large, so that transport keys derived from it show in the tag of
whatever is encrypted under them. -/
def sumFreshKey (n : ℕ) : Buffer := bytesBE 65 (n * 256 ^ 31)

/-- The pairwise key of one of the identities and such a public key. -/
def sumFreshPairwise (i n : ℕ) : Buffer :=
  (pairwiseKey sumCrypto (bytesBE 65 i) (sumFreshKey n)).getD []

/-- The MEMBER_INFO that somebody with private key `server` sends to a client. -/
def sumServerInfo (server convId target : ℕ) (creator : Bool) (members : List RosterEntry) :
    Buffer :=
  let info : MemberInfo :=
    { type := TYPE_MEMBER_INFO, convId, senderId := target,
      serverPubKey := bytesBE 65 server, creator, members }
  (Codec.encodeMemberInfo sumCrypto info (sumPairwise server target) (Buffer.alloc 12)).getD []

/-- The MEMBER_INFO that the server, with private key `9`, sends to a client. -/
def sumMemberInfo (convId target : ℕ) (creator : Bool) (ids : List ℕ) : Buffer :=
  sumServerInfo 9 convId target creator (sumRoster ids)

end DartProtocol
