import PaymentProcessing.Propeller.Acceptance

/-! The signature of a token, statement by statement: the index loop of `hmac_sha256` over its
two pads, with the bounds that Rust checks, and the comparison with what the token brings. -/
namespace Propeller

/-- `block[..stop].copy_from_slice(source)`; none where it panics. -/
def copyRange (block : List UInt8) (stop : Nat) (source : List UInt8) : Option (List UInt8) :=
  if stop ≤ block.length ∧ source.length = stop then some (source ++ block.drop stop) else none

/-- `pad[i] ^= key_block[i]` -/
def xorAt (pad keyBlock : List UInt8) (i : Nat) : Option (List UInt8) := do
  let a ← pad[i]?
  let b ← keyBlock[i]?
  return pad.set i (a ^^^ b)

/-- The body of the loop for each index in turn, on `ipad` and `opad`. -/
def xorPads (keyBlock : List UInt8) : List Nat → List UInt8 → List UInt8 →
    Option (List UInt8 × List UInt8)
  | [], ipad, opad => some (ipad, opad)
  | i :: rest, ipad, opad => do
      let ipad ← xorAt ipad keyBlock i
      let opad ← xorAt opad keyBlock i
      xorPads keyBlock rest ipad opad

/-- `key_block` after its two branches -/
def keyBlockChecked (sha256 : List UInt8 → Vector UInt8 32) (key : List UInt8) :
    Option (List UInt8) :=
  let zeros := List.replicate blockSize 0
  if key.length > blockSize then copyRange zeros 32 (sha256 key).toList
  else copyRange zeros key.length key

/-- `hmac_sha256` with its bounds checks; none where a slice or an index is out of range. -/
def hmacSha256Checked (sha256 : List UInt8 → Vector UInt8 32) (key message : List UInt8) :
    Option (List UInt8) := do
  let keyBlock ← keyBlockChecked sha256 key
  let (ipad, opad) ← xorPads keyBlock (List.range blockSize) (List.replicate blockSize 0x36)
    (List.replicate blockSize 0x5c)
  let innerHash := sha256 (ipad ++ message)
  let digest := sha256 (opad ++ innerHash.toList)
  copyRange (List.replicate 32 0) 32 digest.toList

section Loop
variable {keyBlock pad ipad opad : List UInt8}

/-- A pad of which the loop has done the first `i` bytes. -/
def xorUpTo (keyBlock pad : List UInt8) (i : Nat) : List UInt8 :=
  (List.zipWith (· ^^^ ·) pad keyBlock).take i ++ pad.drop i

theorem xorUpTo_zero : xorUpTo keyBlock pad 0 = pad := by
  simp [xorUpTo]

theorem xorUpTo_all (whole : pad.length = keyBlock.length) :
    xorUpTo keyBlock pad keyBlock.length = List.zipWith (· ^^^ ·) pad keyBlock := by
  have done : (List.zipWith (· ^^^ ·) pad keyBlock).length = keyBlock.length := by simp [whole]
  rw [xorUpTo, List.take_of_length_le done.le, ← whole, List.drop_length, List.append_nil]

theorem xorAt_xorUpTo (whole : pad.length = keyBlock.length) (inside : i < keyBlock.length) :
    xorAt (xorUpTo keyBlock pad i) keyBlock i = some (xorUpTo keyBlock pad (i + 1)) := by
  have inPad : i < pad.length := whole ▸ inside
  have inBoth : i < (List.zipWith (· ^^^ ·) pad keyBlock).length := by
    rw [List.length_zipWith]
    omega
  have done : ((List.zipWith (· ^^^ ·) pad keyBlock).take i).length = i :=
    List.length_take_of_le inBoth.le
  have before : xorUpTo keyBlock pad i =
      (List.zipWith (· ^^^ ·) pad keyBlock).take i ++ pad[i] :: pad.drop (i + 1) := by
    rw [xorUpTo, List.drop_eq_getElem_cons inPad]
  have after : xorUpTo keyBlock pad (i + 1) =
      (List.zipWith (· ^^^ ·) pad keyBlock).take i ++
        (pad[i] ^^^ keyBlock[i]) :: pad.drop (i + 1) := by
    rw [xorUpTo, List.take_succ_eq_append_getElem inBoth, List.append_assoc, List.getElem_zipWith]
    rfl
  have read : (xorUpTo keyBlock pad i)[i]? = some pad[i] := by
    rw [before, List.getElem?_append_right done.le, done, Nat.sub_self, List.getElem?_cons_zero]
  have written (b : UInt8) : (xorUpTo keyBlock pad i).set i b =
      (List.zipWith (· ^^^ ·) pad keyBlock).take i ++ b :: pad.drop (i + 1) := by
    rw [before, List.set_append_right i b done.le, done, Nat.sub_self, List.set_cons_zero]
  rw [xorAt, read, List.getElem?_eq_getElem inside, after, ← written]
  rfl

/-- From index `i` on, the loop does what is left of both pads. -/
theorem xorPads_range (inner : ipad.length = keyBlock.length) (outer : opad.length = keyBlock.length)
    (inside : i + n ≤ keyBlock.length) :
    xorPads keyBlock (List.range' i n) (xorUpTo keyBlock ipad i) (xorUpTo keyBlock opad i) =
      some (xorUpTo keyBlock ipad (i + n), xorUpTo keyBlock opad (i + n)) := by
  induction n generalizing i with
  | zero => rfl
  | succ n ih =>
    have next := ih (i := i + 1) (by omega)
    rw [List.range'_succ, xorPads, xorAt_xorUpTo inner (by omega), xorAt_xorUpTo outer (by omega)]
    simpa only [Option.bind_eq_bind, Option.bind_some, Nat.add_assoc, Nat.add_comm 1 n] using next

end Loop

theorem copyRange_zeros (source : List UInt8) (fits : source.length ≤ n) :
    copyRange (List.replicate n 0) source.length source =
      some (source ++ List.replicate (n - source.length) 0) := by
  rw [copyRange, List.length_replicate, if_pos ⟨fits, rfl⟩, List.drop_replicate]

/-- The key block is never out of range: a long key is replaced by its digest first. -/
theorem keyBlockChecked_eq (sha256 : List UInt8 → Vector UInt8 32) (key : List UInt8) :
    keyBlockChecked sha256 key =
      some (Hmac.blockKey (fun text => (sha256 text).toList) blockSize key) := by
  unfold keyBlockChecked
  split
  · rename_i long
    have copied := copyRange_zeros (sha256 key).toList (digest_fits (sha256 key))
    rw [Vector.length_toList] at copied
    rw [copied, Hmac.blockKey_of_long long, Vector.length_toList]
  · rename_i short
    have short := Nat.le_of_not_lt short
    rw [copyRange_zeros key short, Hmac.blockKey_of_short short]

/-- The whole loop combines each pad with the block. -/
theorem xorPads_all (block : List UInt8) (inner outer : UInt8) :
    xorPads block (List.range block.length) (List.replicate block.length inner)
        (List.replicate block.length outer) =
      some (block.map (· ^^^ inner), block.map (· ^^^ outer)) := by
  have whole (pad : UInt8) : (List.replicate block.length pad).length = block.length :=
    List.length_replicate
  have done := xorPads_range (whole inner) (whole outer) (i := 0) (n := block.length) (by omega)
  rw [xorUpTo_zero, xorUpTo_zero, Nat.zero_add, xorUpTo_all (whole inner),
    xorUpTo_all (whole outer), Hmac.zipWith_replicate, Hmac.zipWith_replicate] at done
  rw [List.range_eq_range']
  exact done

/-- For every key and message the code computes the keyed hash of RFC 2104, and no slice or
index of it is out of range. -/
theorem hmacSha256_rfc2104 (sha256 : List UInt8 → Vector UInt8 32) (key message : List UInt8) :
    hmacSha256Checked sha256 key message =
        some (Hmac.hmac (fun text => (sha256 text).toList) blockSize key message) ∧
      (hmacSha256 sha256 key message).toList =
        Hmac.hmac (fun text => (sha256 text).toList) blockSize key message := by
  refine ⟨?_, toList_hmacSha256 sha256 key message⟩
  have whole : (Hmac.blockKey (fun text => (sha256 text).toList) blockSize key).length = blockSize :=
    Hmac.length_blockKey fun _ => digest_fits (sha256 key)
  have pads := xorPads_all (Hmac.blockKey (fun text => (sha256 text).toList) blockSize key) 0x36 0x5c
  rw [whole] at pads
  have copied (digest : Vector UInt8 32) :
      copyRange (List.replicate 32 0) 32 digest.toList = some digest.toList := by
    simp [copyRange]
  rw [hmacSha256Checked, keyBlockChecked_eq, Option.bind_eq_bind, Option.bind_some, pads,
    Option.bind_eq_bind, Option.bind_some]
  exact copied _

theorem constantTimeEq_iff : constantTimeEq lhs rhs = true ↔ lhs = rhs := by
  constructor
  · exact eq_of_constantTimeEq
  · rintro rfl
    exact constantTimeEq_self lhs

section Verification
variable {crates : Crates} {clock : Option UInt64} {config : AuthConfig} {parts : Parts}

/-- The error of a failing signature check. -/
def unverified : PropellerError := .unauthenticated "jwt signature verification failed"

theorem validateClaims_ne (claims : JwtClaims) :
    validateClaims clock config claims ≠ .error unverified := by
  intro h
  simp only [validateClaims, refuse_bind_error, unverified] at h
  cases clock with
  | none => simp at h
  | some now =>
    cases begins : claims.nbf with
    | none =>
      cases ends : claims.exp <;> simp [begins, ends, refuse_error] at h
    | some nbf =>
      cases ends : claims.exp <;> simp [begins, ends, refuse_error, refuse_bind_error] at h

/-- A token that gets as far as the check fails it exactly when it brings something else. -/
theorem decode_unverified_iff (free : parts.Dotless) (configured : config.jwt.hmacSecret = some secret)
    (decoded : crates.urlSafeNoPad parts.signature = some actual) :
    decodeAndValidateHs256 crates clock config parts.text = .error unverified ↔
      actual ≠ (hmacSha256 crates.sha256 (asBytes secret) parts.signingInput).toList := by
  have checked : (!constantTimeEq (hmacSha256 crates.sha256 (asBytes secret) parts.signingInput).toList
      actual) = true ↔
      actual ≠ (hmacSha256 crates.sha256 (asBytes secret) parts.signingInput).toList := by
    rw [Bool.not_eq_true', ← Bool.not_eq_true, constantTimeEq_iff, eq_comm]
  unfold Parts.signingInput at checked ⊢
  unfold decodeAndValidateHs256
  simp only [configured, Parts.splitOn_text free, decoded]
  rw [refuse_bind_error, checked]
  constructor
  · rintro (⟨different, -⟩ | ⟨-, later⟩)
    · exact different
    · -- the checks that follow have errors of their own
      split at later
      · split at later
        · rename_i claims _
          cases valid : validateClaims clock config claims with
          | error e =>
            rw [valid] at later
            cases later
            exact absurd valid (validateClaims_ne claims)
          | ok _ =>
            rw [valid] at later
            cases later
        · simp [unverified] at later
      · simp [unverified] at later
  · intro different
    exact Or.inl ⟨different, rfl⟩

end Verification

/-- The comparison decides equality, so the signature check lets nothing pass but the 32 bytes
that `hmac_sha256` computes. -/
theorem constantTimeEq_exact : (∀ lhs rhs, constantTimeEq lhs rhs = true ↔ lhs = rhs) ∧
    ∀ (crates : Crates) (clock : Option UInt64) (config : AuthConfig) (parts : Parts)
      (secret : String) (actual : List UInt8), parts.Dotless →
      config.jwt.hmacSecret = some secret → crates.urlSafeNoPad parts.signature = some actual →
      let expected := (hmacSha256 crates.sha256 (asBytes secret) parts.signingInput).toList
      expected.length = 32 ∧
        (decodeAndValidateHs256 crates clock config parts.text = .error unverified ↔
          actual ≠ expected) :=
  ⟨fun _ _ => constantTimeEq_iff, fun _ _ _ _ _ _ free configured decoded =>
    ⟨Vector.length_toList, decode_unverified_iff free configured decoded⟩⟩

/-- The sample token with nothing for its signature. -/
def unsigned : Parts := { sampleParts with signature := [] }

/-- The samples with a decoder that takes the empty text. -/
def unsignedCrates : Crates :=
  { sampleCrates with
    urlSafeNoPad := fun text => if text = [] then some [] else sampleCrates.urlSafeNoPad text }

theorem unsigned_unverified : decodeAndValidateHs256 unsignedCrates (some 1771000000) sampleAuth
    unsigned.text = .error unverified := by
  have free : unsigned.Dotless := by
    unfold Parts.Dotless
    decide +kernel
  refine (constantTimeEq_exact.2 unsignedCrates _ sampleAuth unsigned "secret" [] free rfl rfl).2.mpr ?_
  intro same
  have lengths := congrArg List.length same
  rw [Vector.length_toList] at lengths
  cases lengths

end Propeller
