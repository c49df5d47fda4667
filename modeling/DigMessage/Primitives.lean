import DigMessage.Envelope

/-! The third-party primitives: BLS12-381 keys, signatures and group Diffie-Hellman,
SHA-256, HKDF, ChaCha20Poly1305 and zstd. They are parameters; `Lawful` states what
their documentation promises and the seal relies on. -/
namespace DigMessage
open FixedWidth

def byte32 (n : UInt8) : Bytes32 := ⟨List.replicate 32 n,rfl⟩

/-- The primitives over secret keys of type `SK`. -/
structure Primitives (SK : Type) where
  publicKeyBytes : SK → Bytes48
  secretKeyFromSeed : Bytes32 → SK
  g1Dh : SK → Bytes48 → Option Bytes48
  g1SubgroupCheck : Bytes48 → Bool
  signMessage : SK → List UInt8 → Bytes96
  verifySignature : Bytes48 → List UInt8 → Bytes96 → Bool
  sha256 : List UInt8 → Bytes32
  /-- Extract with no salt, then expand to the 32-byte key and the 12-byte nonce. -/
  hkdfSha256 : (ikm : Bytes 96) → (info : List UInt8) → Bytes 44
  aeadEncrypt : (key : Bytes 32) → (nonce : Bytes 12) → (aad msg : List UInt8) → Option (List UInt8)
  aeadDecrypt : (key : Bytes 32) → (nonce : Bytes 12) → (aad msg : List UInt8) → Option (List UInt8)
  zstdCompress : List UInt8 → (level : ℤ) → Except String (List UInt8)
  zstdDecompress : List UInt8 → (capacity : ℕ) → Except String (List UInt8)

namespace Primitives
variable {SK : Type}

/-- Decompression into the original length undoes compression. -/
def ZstdLossless (P : Primitives SK) : Prop :=
  ∀ {xs ys : List UInt8} {level : ℤ}, P.zstdCompress xs level = .ok ys →
    P.zstdDecompress ys xs.length = .ok xs

/-- The documented behaviour of the primitives on matching keys and inputs. -/
structure Lawful (P : Primitives SK) : Prop where
  dh_comm : ∀ x y, P.g1Dh x (P.publicKeyBytes y) = P.g1Dh y (P.publicKeyBytes x)
  subgroup : ∀ x, P.g1SubgroupCheck (P.publicKeyBytes x) = true
  verify_sign : ∀ x msg, P.verifySignature (P.publicKeyBytes x) msg (P.signMessage x msg) = true
  decrypt_encrypt : ∀ {key nonce aad msg ct}, P.aeadEncrypt key nonce aad msg = some ct →
    P.aeadDecrypt key nonce aad ct = some msg
  zstd : P.ZstdLossless

def digest (n : ℕ) (xs : List UInt8) : Bytes n :=
  ⟨bigEndian n (xs.foldl (fun acc b => 257*acc+b.toNat+1) 0),bigEndian_length _ _⟩

/-- Keys are 32 bytes, points those bytes and a zero tail, and scalars multiply bytewise. -/
def point (bs : Bytes32) : Bytes48 := ⟨bs.val++List.replicate 16 0,by simp [bs.2]⟩

def tag (key : Bytes 32) (nonce : Bytes 12) (aad msg : List UInt8) : Bytes 16 :=
  digest 16 (key.val++nonce.val++aad++msg)

def plain : Primitives Bytes32 where
  publicKeyBytes := point
  secretKeyFromSeed := id
  g1Dh x pub := some (point ⟨List.zipWith (· * ·) x.val (pub.val.take 32),by simp [x.2,pub.2]⟩)
  g1SubgroupCheck pub := pub.val.drop 32 = List.replicate 16 0
  signMessage x msg := digest 96 ((point x).val++msg)
  verifySignature pub msg sig := sig = digest 96 (pub.val++msg)
  sha256 := digest 32
  hkdfSha256 ikm info := digest 44 (ikm.val++info)
  aeadEncrypt key nonce aad msg := some ((tag key nonce aad msg).val++msg)
  aeadDecrypt key nonce aad ct :=
    if ct.take 16 = (tag key nonce aad (ct.drop 16)).val then some (ct.drop 16) else none
  zstdCompress xs _ := .ok xs
  zstdDecompress xs _ := .ok xs

theorem plain_lawful : plain.Lawful where
  dh_comm x y := by
    have hx : (plain.publicKeyBytes x).val.take 32 = x.val := by
      simp [plain,point,x.2]
    have hy : (plain.publicKeyBytes y).val.take 32 = y.val := by
      simp [plain,point,y.2]
    simp only [plain] at hx hy ⊢
    congr 2
    apply Subtype.ext
    simp only [hx,hy]
    exact List.zipWith_comm_of_comm (fun a b => UInt8.mul_comm a b)
  subgroup x := by simp [plain,point,x.2]
  verify_sign x msg := by simp [plain]
  decrypt_encrypt {key nonce aad msg ct} h := by
    simp only [plain,Option.some.injEq] at h ⊢
    subst h
    have hl : (tag key nonce aad msg).val.length = 16 := (tag key nonce aad msg).2
    simp [hl]
  zstd {xs ys level} h := by
    cases h
    rfl

def squeeze (xs : List UInt8) : List UInt8 :=
  if xs = List.replicate xs.length 0 ∧ xs.length < 2^32 then 0::bigEndian 4 xs.length else 1::xs

def unsqueeze : List UInt8 → List UInt8
  | [] => []
  | mark::xs => if mark = 0 then List.replicate (fromBigEndian xs) 0 else xs

theorem unsqueeze_squeeze (xs : List UInt8) : unsqueeze (squeeze xs) = xs := by
  unfold squeeze
  split
  · rename_i h
    have hlen : fromBigEndian (bigEndian 4 xs.length) = xs.length := by
      rw [fromBigEndian_bigEndian,Nat.mod_eq_of_lt (by omega)]
    simp only [unsqueeze,if_true,hlen]
    exact h.1.symm
  · simp [unsqueeze]

def squeezing : Primitives Bytes32 :=
  {plain with
    zstdCompress := fun xs _ => .ok (squeeze xs)
    zstdDecompress := fun ys capacity =>
      if (unsqueeze ys).length ≤ capacity then .ok (unsqueeze ys) else .error "capacity"}

theorem squeezing_lawful : squeezing.Lawful where
  dh_comm := plain_lawful.dh_comm
  subgroup := plain_lawful.subgroup
  verify_sign := plain_lawful.verify_sign
  decrypt_encrypt := plain_lawful.decrypt_encrypt
  zstd {xs ys level} h := by
    simp only [squeezing,Except.ok.injEq] at h ⊢
    subst h
    simp [unsqueeze_squeeze]

end Primitives

def compressionNone : UInt8 := 0
def compressionZstd : UInt8 := 1

structure CompressedPayload where
  compression : UInt8
  bytes : List UInt8
  uncompressedLen : UInt32
  deriving DecidableEq, Repr

def raw (payload : List UInt8) (uncompressedLen : UInt32) : CompressedPayload :=
  ⟨compressionNone,payload,uncompressedLen⟩

/-- Compress where the payload is large enough and zstd shrinks it, else keep it raw. -/
def compressPayload {SK : Type} (P : Primitives SK) (payload : List UInt8) :
    Except MessageError CompressedPayload :=
  if payload.length < 2^32 then
    let uncompressedLen := UInt32.ofNat payload.length
    if payload.length < minCompressBytes then .ok (raw payload uncompressedLen)
    else match P.zstdCompress payload zstdLevel with
      | .error e => .error (.codec (.zstd e))
      | .ok compressed =>
        if compressed.length ≥ payload.length then .ok (raw payload uncompressedLen)
        else .ok ⟨compressionZstd,compressed,uncompressedLen⟩
  else .error (.payloadTooLarge payload.length)

/-- Decompress under the bomb guard: the declared length is capped and must be exact. -/
def decompressPayload {SK : Type} (P : Primitives SK) (compression : UInt8) (data : List UInt8)
    (uncompressedLen : UInt32) : Except MessageError (List UInt8) :=
  let declared := uncompressedLen.toNat
  if declared > maxDecompressedBytes then .error (.decompressionBomb declared maxDecompressedBytes)
  else if compression = compressionNone then
    if data.length ≠ declared then .error (.decompressedLengthMismatch declared data.length)
    else .ok data
  else if compression = compressionZstd then
    match P.zstdDecompress data declared with
    | .error e => .error (.codec (.zstd e))
    | .ok decoded =>
      if decoded.length ≠ declared then
        .error (.decompressedLengthMismatch declared decoded.length)
      else .ok decoded
  else .error (.unsupportedCompression compression)

theorem decompress_raw {SK : Type} (P : Primitives SK) {payload : List UInt8} {len : UInt32}
    (hl : len.toNat = payload.length) (hm : payload.length ≤ maxDecompressedBytes) :
    decompressPayload P compressionNone payload len = .ok payload := by
  simp [decompressPayload,hl,Nat.not_lt.mpr hm]

theorem decompress_compress {SK : Type} {P : Primitives SK} (hz : P.ZstdLossless)
    {payload : List UInt8} {c : CompressedPayload} (h : compressPayload P payload = .ok c) :
    c.uncompressedLen.toNat = payload.length ∧
    (payload.length ≤ maxDecompressedBytes →
      decompressPayload P c.compression c.bytes c.uncompressedLen = .ok payload) := by
  unfold compressPayload at h
  split at h
  · rename_i hlt
    have hlen : (UInt32.ofNat payload.length).toNat = payload.length := by
      rw [UInt32.toNat_ofNat']
      exact Nat.mod_eq_of_lt hlt
    simp only at h
    split at h
    · cases h
      exact ⟨hlen,decompress_raw P hlen⟩
    · split at h
      · cases h
      · rename_i ys hc
        split at h
        · cases h
          exact ⟨hlen,decompress_raw P hlen⟩
        · cases h
          refine ⟨hlen,fun hm => ?_⟩
          simp [decompressPayload,hlen,Nat.not_lt.mpr hm,compressionNone,compressionZstd,hz hc]
  · cases h

theorem decompress_bomb {SK : Type} (P : Primitives SK) {compression : UInt8} {data : List UInt8}
    {len : UInt32} (h : maxDecompressedBytes < len.toNat) :
    decompressPayload P compression data len =
      .error (.decompressionBomb len.toNat maxDecompressedBytes) := by
  simp [decompressPayload,h]

end DigMessage
