import Mathlib.Data.Finmap
import Prsm.Foundations.Streams
import Prsm.Settlement.Receipt
import Prsm.Storage.KeySharing

/-!
# Paid content as a ciphertext file

`encrypt_content_to_file` encrypts a file block by block into

`magic (8) | key_id_len (1) | key_id | iv (12) | ciphertext | auth_tag (16)`

and `decrypt_content_from_file` reads that layout back.  The plaintext goes to a temporary file,
which replaces the destination only after the tag has been verified.

AES-GCM comes from outside.  Assumed of it is that what was sealed opens to its plaintext, that
what opens was sealed, and that it does not matter into which blocks a text is cut.
-/

namespace Prsm.Storage.StreamingCiphertext

open Foundations
open Evm (Bytes Uint)
open Settlement (utf8)
open KeySharing (AESKey)

/-- A byte string of one length. -/
abbrev Fixed (n : ℕ) : Type := { b : Bytes // b.length = n }

/-- `Cipher(algorithms.AES(key), modes.GCM(…))`, block by block, beside `AESGCM`, which seals and
opens a whole text. -/
structure Gcm where
  Context : Type
  encryptor : Fixed 32 → Fixed 12 → Context
  encryptUpdate : Context → Bytes → Context × Bytes
  encryptFinalize : Context → Fixed 16
  decryptor : Fixed 32 → Fixed 12 → Fixed 16 → Context
  decryptUpdate : Context → Bytes → Context × Bytes
  /-- Whether `finalize` returns: it raises `InvalidTag` otherwise. -/
  verifies : Context → Bool
  sealed : Fixed 32 → Fixed 12 → Bytes → Bytes × Fixed 16
  opened : Fixed 32 → Fixed 12 → Bytes → Fixed 16 → Option Bytes
  /-- The cipher is correct. -/
  opened_sealed : ∀ key iv plaintext,
    opened key iv (sealed key iv plaintext).1 (sealed key iv plaintext).2 = some plaintext
  /-- The cipher is authentic. -/
  sealed_of_opened : ∀ key iv ciphertext tag plaintext,
    opened key iv ciphertext tag = some plaintext →
      sealed key iv plaintext = (ciphertext, tag)
  /-- Encryption does not depend on the blocks. -/
  encrypt_blocks : ∀ key iv blocks,
    ((feed encryptUpdate (encryptor key iv) blocks).2,
      encryptFinalize (feed encryptUpdate (encryptor key iv) blocks).1) =
        sealed key iv blocks.flatten
  /-- Decryption does not depend on the blocks. -/
  decrypt_blocks : ∀ key iv tag blocks,
    opened key iv blocks.flatten tag =
      if verifies (feed decryptUpdate (decryptor key iv tag) blocks).1 then
        some (feed decryptUpdate (decryptor key iv tag) blocks).2
      else none

/-! ## Counter mode -/

section CounterMode

section Mask

variable (keystream : ℕ → Uint 8)

/-- A text under the keystream from one of its bytes on. -/
def mask (start : ℕ) (text : Bytes) : Bytes :=
  text.mapIdx fun i byte => byte ^^^ keystream (start + i)

theorem xor_xor_cancel (byte k : Uint 8) : byte ^^^ k ^^^ k = byte := by
  apply Fin.ext
  rw [Fin.xor_val_of_two_pow, Fin.xor_val_of_two_pow, Nat.xor_assoc, Nat.xor_self, Nat.xor_zero]

@[simp] theorem length_mask (start : ℕ) (text : Bytes) :
    (mask keystream start text).length = text.length := List.length_mapIdx

theorem mask_nil (start : ℕ) : mask keystream start [] = [] := rfl

theorem mask_append (start : ℕ) (a b : Bytes) :
    mask keystream start (a ++ b) =
      mask keystream start a ++ mask keystream (start + a.length) b := by
  have hShift : ∀ i, start + a.length + i = start + (i + a.length) := fun i => by omega
  simp only [mask, List.mapIdx_append, hShift]

theorem mask_mask (start : ℕ) (text : Bytes) :
    mask keystream start (mask keystream start text) = text := by
  rw [mask, mask, List.mapIdx_mapIdx]
  simp only [Function.comp_def, xor_xor_cancel]
  exact List.mapIdx_eq_iff.mpr fun i => by rw [Option.map_id']
end Mask

/-- A text that is encrypted or decrypted under a keystream. -/
structure Masking where
  key : Fixed 32
  iv : Fixed 12
  ciphertext : Bytes
  expected : Option (Fixed 16)

variable (keystream : Fixed 32 → Fixed 12 → ℕ → Uint 8)
  (tagOf : Fixed 32 → Fixed 12 → Bytes → Fixed 16)

def Masking.encrypt (s : Masking) (block : Bytes) : Masking × Bytes :=
  ({ s with ciphertext := s.ciphertext ++ mask (keystream s.key s.iv) s.ciphertext.length block },
    mask (keystream s.key s.iv) s.ciphertext.length block)

def Masking.decrypt (s : Masking) (block : Bytes) : Masking × Bytes :=
  ({ s with ciphertext := s.ciphertext ++ block },
    mask (keystream s.key s.iv) s.ciphertext.length block)

def Masking.verifies (s : Masking) : Bool :=
  decide (s.expected = some (tagOf s.key s.iv s.ciphertext))

theorem Masking.feed_encrypt (s : Masking) (blocks : List Bytes) :
    feed (Masking.encrypt keystream) s blocks = s.encrypt keystream blocks.flatten := by
  refine feed_flatten _ ?_ ?_ blocks s
  · intro s
    simp only [encrypt, mask_nil, List.append_nil]
  · intro s a b
    simp only [encrypt, mask_append, List.append_assoc, List.length_append, length_mask]

theorem Masking.feed_decrypt (s : Masking) (blocks : List Bytes) :
    feed (Masking.decrypt keystream) s blocks = s.decrypt keystream blocks.flatten := by
  refine feed_flatten _ ?_ ?_ blocks s
  · intro s
    simp only [decrypt, mask_nil, List.append_nil]
  · intro s a b
    simp only [decrypt, mask_append, List.append_assoc, List.length_append]

def sealText (key : Fixed 32) (iv : Fixed 12) (plaintext : Bytes) : Bytes × Fixed 16 :=
  (mask (keystream key iv) 0 plaintext, tagOf key iv (mask (keystream key iv) 0 plaintext))

def openText (key : Fixed 32) (iv : Fixed 12) (ciphertext : Bytes) (tag : Fixed 16) :
    Option Bytes :=
  if tag = tagOf key iv ciphertext then some (mask (keystream key iv) 0 ciphertext) else none

variable {keystream tagOf}

theorem openText_sealText (key : Fixed 32) (iv : Fixed 12) (plaintext : Bytes) :
    openText keystream tagOf key iv (sealText keystream tagOf key iv plaintext).1
      (sealText keystream tagOf key iv plaintext).2 = some plaintext := by
  simp only [openText, sealText, if_true, mask_mask]

theorem sealText_of_openText (key : Fixed 32) (iv : Fixed 12) (ciphertext : Bytes) (tag : Fixed 16)
    (plaintext : Bytes) (h : openText keystream tagOf key iv ciphertext tag = some plaintext) :
    sealText keystream tagOf key iv plaintext = (ciphertext, tag) := by
  unfold openText at h
  split at h
  case isTrue hTag =>
    cases h
    simp only [sealText, mask_mask, hTag]
  case isFalse => cases h

theorem sealText_blocks (key : Fixed 32) (iv : Fixed 12) (blocks : List Bytes) :
    ((feed (Masking.encrypt keystream) ⟨key, iv, [], none⟩ blocks).2,
      tagOf (feed (Masking.encrypt keystream) ⟨key, iv, [], none⟩ blocks).1.key
        (feed (Masking.encrypt keystream) ⟨key, iv, [], none⟩ blocks).1.iv
        (feed (Masking.encrypt keystream) ⟨key, iv, [], none⟩ blocks).1.ciphertext) =
      sealText keystream tagOf key iv blocks.flatten := by
  rw [Masking.feed_encrypt]
  rfl

theorem openText_blocks (key : Fixed 32) (iv : Fixed 12) (tag : Fixed 16) (blocks : List Bytes) :
    openText keystream tagOf key iv blocks.flatten tag =
      if Masking.verifies tagOf (feed (Masking.decrypt keystream) ⟨key, iv, [], some tag⟩ blocks).1
      then some (feed (Masking.decrypt keystream) ⟨key, iv, [], some tag⟩ blocks).2
      else none := by
  rw [Masking.feed_decrypt]
  simp only [openText, Masking.decrypt, Masking.verifies, List.nil_append, List.length_nil,
    Option.some.injEq, decide_eq_true_eq]

variable (keystream tagOf)

def counterMode : Gcm where
  Context := Masking
  encryptor key iv := { key, iv, ciphertext := [], expected := none }
  encryptUpdate := Masking.encrypt keystream
  encryptFinalize s := tagOf s.key s.iv s.ciphertext
  decryptor key iv tag := { key, iv, ciphertext := [], expected := some tag }
  decryptUpdate := Masking.decrypt keystream
  verifies := Masking.verifies tagOf
  sealed := sealText keystream tagOf
  opened := openText keystream tagOf
  opened_sealed := openText_sealText
  sealed_of_opened := sealText_of_openText
  encrypt_blocks := sealText_blocks
  decrypt_blocks := openText_blocks

end CounterMode

/-! ## `StreamingEncryptor` and `StreamingDecryptor` -/

inductive Failure
  | paidUnlock (message : String)
  | encryption (message : String)
  | encryptionAuth (message : String)
  | os (message : String)

/-- `str(exc)`. -/
def Failure.text : Failure → String
  | .paidUnlock message | .encryption message | .encryptionAuth message | .os message => message

section Ciphers

variable (gcm : Gcm)

def rawKey (key : AESKey) : Fixed 32 :=
  ⟨key.keyBytes, key.length_keyBytes⟩

structure StreamingEncryptor where
  iv : Fixed 12
  cipher : gcm.Context
  finalized : Bool

/-- `StreamingEncryptor(key)`, with what `os.urandom` gives it. -/
def streamingEncryptor (urandom : Fixed 12) (key : AESKey) : StreamingEncryptor gcm :=
  { iv := urandom
    cipher := gcm.encryptor (rawKey key) urandom
    finalized := false }

structure StreamingDecryptor where
  cipher : gcm.Context
  finalized : Bool

/-- `StreamingDecryptor(key, iv, auth_tag)`. -/
def streamingDecryptor (key : AESKey) (iv authTag : Bytes) :
    Except Failure (StreamingDecryptor gcm) :=
  if hIv : iv.length = 12 then
    if hTag : authTag.length = 16 then
      .ok { cipher := gcm.decryptor (rawKey key) ⟨iv, hIv⟩ ⟨authTag, hTag⟩, finalized := false }
    else .error (.encryption "auth_tag must be 16 bytes")
  else .error (.encryption "iv must be 12 bytes")

variable {gcm}

def StreamingEncryptor.encryptChunk (enc : StreamingEncryptor gcm) (chunk : Bytes) :
    Except Failure (Bytes × StreamingEncryptor gcm) := do
  require (enc.finalized = false) (.encryption "encryptor already finalized")
  pure ((gcm.encryptUpdate enc.cipher chunk).2,
    { enc with cipher := (gcm.encryptUpdate enc.cipher chunk).1 })

def StreamingEncryptor.finalize (enc : StreamingEncryptor gcm) :
    Except Failure (Fixed 16 × StreamingEncryptor gcm) := do
  require (enc.finalized = false) (.encryption "encryptor already finalized")
  pure (gcm.encryptFinalize enc.cipher, { enc with finalized := true })

def StreamingDecryptor.decryptChunk (dec : StreamingDecryptor gcm) (chunk : Bytes) :
    Except Failure (Bytes × StreamingDecryptor gcm) := do
  require (dec.finalized = false) (.encryption "decryptor already finalized")
  pure ((gcm.decryptUpdate dec.cipher chunk).2,
    { dec with cipher := (gcm.decryptUpdate dec.cipher chunk).1 })

def StreamingDecryptor.finalize (dec : StreamingDecryptor gcm) :
    Except Failure (StreamingDecryptor gcm) := do
  require (dec.finalized = false) (.encryption "decryptor already finalized")
  require (gcm.verifies dec.cipher) (.encryptionAuth "authentication failed")
  pure { dec with finalized := true }

theorem StreamingEncryptor.encryptChunk_of_not_finalized {enc : StreamingEncryptor gcm}
    (h : enc.finalized = false) (chunk : Bytes) :
    enc.encryptChunk chunk = .ok ((gcm.encryptUpdate enc.cipher chunk).2,
      { enc with cipher := (gcm.encryptUpdate enc.cipher chunk).1 }) := by
  rw [encryptChunk, require_of_pos _ h, ok_bind]
  rfl

theorem StreamingEncryptor.finalize_of_not_finalized {enc : StreamingEncryptor gcm}
    (h : enc.finalized = false) :
    enc.finalize = .ok (gcm.encryptFinalize enc.cipher, { enc with finalized := true }) := by
  rw [finalize, require_of_pos _ h, ok_bind]
  rfl

theorem StreamingDecryptor.decryptChunk_of_not_finalized {dec : StreamingDecryptor gcm}
    (h : dec.finalized = false) (chunk : Bytes) :
    dec.decryptChunk chunk = .ok ((gcm.decryptUpdate dec.cipher chunk).2,
      { dec with cipher := (gcm.decryptUpdate dec.cipher chunk).1 }) := by
  rw [decryptChunk, require_of_pos _ h, ok_bind]
  rfl

theorem StreamingDecryptor.finalize_of_not_finalized {dec : StreamingDecryptor gcm}
    (h : dec.finalized = false) :
    dec.finalize = if gcm.verifies dec.cipher then .ok { dec with finalized := true }
      else .error (.encryptionAuth "authentication failed") := by
  rw [finalize, require_of_pos _ h, ok_bind]
  by_cases hVerifies : gcm.verifies dec.cipher
  · rw [require_of_pos _ hVerifies, if_pos hVerifies, ok_bind]
    rfl
  · rw [require_of_neg _ hVerifies, if_neg hVerifies, error_bind]

theorem streamingDecryptor_fixed (key : AESKey) (iv : Fixed 12) (tag : Fixed 16) :
    streamingDecryptor gcm key iv.val tag.val =
      .ok { cipher := gcm.decryptor (rawKey key) iv tag, finalized := false } := by
  rw [streamingDecryptor, dif_pos iv.property, dif_pos tag.property]

end Ciphers

/-! ## Files -/

/-- The files of a host, by path. -/
abbrev Files : Type := Finmap fun _ : String => Bytes

/-- What the operating system chooses. -/
structure Host where
  /-- The text of the `OSError` for a path without a file. -/
  noSuchFile : String → String
  /-- The name `tempfile.mkstemp` takes beside a destination. -/
  temp : Files → String → String
  temp_fresh : ∀ files dest, temp files dest ∉ files

/-- The texts of the `OSError`s that a decryption meets. -/
structure Faults where
  mkstemp : Option String
  /-- While the block of this number is read or written. -/
  block : ℕ → Option String
  replace : Option String

def Faults.never : Faults :=
  { mkstemp := none, block := fun _ => none, replace := none }

def fault (text : Option String) : Except Failure Unit :=
  match text with
  | some message => .error (.os message)
  | none => .ok ()

theorem fault_none : fault none = .ok () := rfl

/-- `tmp.unlink(missing_ok=True)`. -/
def unlink (files : Files) (tmp : String) : Files :=
  files.erase tmp

/-- `os.replace`, which does nothing to a file that is to replace itself. -/
def replace (host : Host) (faults : Faults) (files : Files) (tmp dest : String) :
    Except Failure Unit × Files :=
  match files.lookup tmp with
  | none => (.error (.os (host.noSuchFile tmp)), files)
  | some contents =>
      if tmp = dest then (.ok (), files)
      else
        match fault faults.replace with
        | .error e => (.error e, files)
        | .ok () => (.ok (), (files.erase tmp).insert dest contents)

section Files

variable (host : Host) {faults : Faults} {files files' : Files} {tmp dest : String} {e : Failure}

theorem erase_insert (hFresh : tmp ∉ files) (written : Bytes) :
    (files.insert tmp written).erase tmp = files := by
  refine Finmap.ext_lookup fun path => ?_
  by_cases hPath : path = tmp
  · rw [hPath, Finmap.lookup_erase, Finmap.lookup_eq_none.mpr hFresh]
  · rw [Finmap.lookup_erase_ne hPath, Finmap.lookup_insert_of_ne _ hPath]

theorem replace_written (hFresh : tmp ∉ files) (hFaults : faults.replace = none)
    (written : Bytes) :
    replace host faults (files.insert tmp written) tmp dest =
      (.ok (), files.insert dest written) := by
  unfold replace
  rw [Finmap.lookup_insert]
  simp only
  split
  case isTrue hSame => rw [hSame]
  case isFalse hOther => rw [hFaults, fault_none, erase_insert hFresh]

theorem replace_error {written : Bytes}
    (h : replace host faults (files.insert tmp written) tmp dest = (.error e, files')) :
    tmp ≠ dest ∧ faults.replace ≠ none ∧ files' = files.insert tmp written := by
  unfold replace at h
  rw [Finmap.lookup_insert] at h
  simp only at h
  split at h
  case isTrue => cases h
  case isFalse hOther =>
    refine ⟨hOther, ?_⟩
    cases hReplace : faults.replace with
    | none =>
        rw [hReplace, fault_none] at h
        cases h
    | some message =>
        rw [hReplace] at h
        cases h
        exact ⟨Option.some_ne_none _, rfl⟩

end Files

/-! ## The format -/

/-- `b"PRSMSC1\x00"`. -/
def streamMagic : Bytes :=
  [80, 82, 83, 77, 83, 67, 49, 0]

def streamChunk : ℕ := 1024 * 1024

def streamIvLen : ℕ := 12

def streamTagLen : ℕ := 16

/-- `struct.pack("B", n)`. -/
def packByte (n : ℕ) : Bytes :=
  [Fin.ofNat _ n]

/-- `struct.unpack("B", b)[0]`, or the text of a `struct.error`. -/
def unpackByte : Bytes → Except String ℕ
  | [byte] => .ok byte.val
  | _ => .error "unpack requires a buffer of 1 bytes"

def isStreamingCiphertextFile (files : Files) (path : String) : Bool :=
  match files.lookup path with
  | some contents => decide (((Cursor.start contents).read streamMagic.length).1 = streamMagic)
  | none => false

section Layout

theorem streamChunk_pos : 0 < streamChunk := by norm_num [streamChunk]

/-- The layout of a ciphertext file. -/
def frame (keyId : Bytes) (iv : Fixed 12) (ciphertext : Bytes) (tag : Fixed 16) : Bytes :=
  streamMagic ++ (packByte keyId.length ++ (keyId ++ (iv.val ++ (ciphertext ++ tag.val))))

def headerLen (keyId : Bytes) : ℕ :=
  streamMagic.length + 1 + keyId.length + streamIvLen

variable {keyId ciphertext : Bytes} {iv : Fixed 12} {tag : Fixed 16}

theorem length_frame : (frame keyId iv ciphertext tag).length =
    headerLen keyId + ciphertext.length + streamTagLen := by
  simp only [frame, headerLen, packByte, List.length_append, List.length_singleton, iv.property,
    tag.property, streamIvLen, streamTagLen]
  omega

theorem drop_headerLen : (frame keyId iv ciphertext tag).drop (headerLen keyId) =
    ciphertext ++ tag.val := by
  have hHeader : frame keyId iv ciphertext tag =
      (streamMagic ++ packByte keyId.length ++ keyId ++ iv.val) ++ (ciphertext ++ tag.val) := by
    simp only [frame, List.append_assoc]
  rw [hHeader]
  refine List.drop_left' ?_
  simp only [headerLen, packByte, List.length_append, List.length_singleton, iv.property,
    streamIvLen]

theorem drop_tag : (frame keyId iv ciphertext tag).drop
    ((frame keyId iv ciphertext tag).length - streamTagLen) = tag.val := by
  rw [length_frame, Nat.add_sub_cancel, ← List.drop_drop, drop_headerLen, List.drop_left]

theorem unpackByte_packByte {n : ℕ} (h : n ≤ 255) : unpackByte (packByte n) = .ok n := by
  simp only [unpackByte, packByte, Fin.val_ofNat]
  exact congrArg Except.ok (Nat.mod_eq_of_lt (by omega))

end Layout

/-! ## `encrypt_content_to_file` -/

section Encryption

variable {gcm : Gcm}

/-- What has been written after the last block, and the encryptor. -/
def encryptLoop (fin : Cursor (Uint 8)) (enc : StreamingEncryptor gcm) (fout : Bytes) :
    Bytes × Except Failure (StreamingEncryptor gcm) :=
  if (fin.read streamChunk).1 = [] then (fout, .ok enc)
  else
    match enc.encryptChunk (fin.read streamChunk).1 with
    | .error e => (fout, .error e)
    | .ok (out, enc) => encryptLoop (fin.read streamChunk).2 enc (fout ++ out)
termination_by fin.unread.length
decreasing_by
  rename_i hEnd
  exact Cursor.length_unread_read_lt _ hEnd

variable (gcm)

/-- With the 12 bytes that `os.urandom` gives. -/
def encryptContentToFile (host : Host) (urandom : Fixed 12) (files : Files)
    (srcPath destPath : String) (contentKey : AESKey) : Except Failure Unit × Files :=
  let enc := streamingEncryptor gcm urandom contentKey
  let keyId := utf8 contentKey.keyId
  if 255 < keyId.length then
    (.error (.paidUnlock
      "key_id too long for the streaming ciphertext format (>255 bytes)"), files)
  else if srcPath ∉ files then (.error (.os (host.noSuchFile srcPath)), files)
  else
    -- opening the destination empties it, and the source with it if they are one file
    let files := files.insert destPath []
    let fin := Cursor.start ((files.lookup srcPath).getD [])
    let header := streamMagic ++ packByte keyId.length ++ keyId ++ enc.iv.val
    match encryptLoop fin enc header with
    | (fout, .error e) => (.error e, files.insert destPath fout)
    | (fout, .ok enc) =>
        match enc.finalize with
        | .error e => (.error e, files.insert destPath fout)
        | .ok (tag, _) => (.ok (), files.insert destPath (fout ++ tag.val))

theorem encryptLoop_eq (fin : Cursor (Uint 8)) (enc : StreamingEncryptor gcm) (fout : Bytes)
    (hOpen : enc.finalized = false) :
    ∃ blocks : List Bytes, blocks.flatten = fin.unread ∧
      encryptLoop fin enc fout =
        (fout ++ (feed gcm.encryptUpdate enc.cipher blocks).2,
          .ok { enc with cipher := (feed gcm.encryptUpdate enc.cipher blocks).1 }) := by
  induction fin, enc, fout using encryptLoop.induct with
  | case1 fin enc fout hEnd =>
      refine ⟨[], ?_, ?_⟩
      · rw [Cursor.unread_eq_nil_of_read fin streamChunk_pos hEnd, List.flatten_nil]
      · rw [encryptLoop, if_pos hEnd, feed_nil, List.append_nil]
  | case2 fin enc fout hBlock e hError =>
      rw [StreamingEncryptor.encryptChunk_of_not_finalized hOpen] at hError
      cases hError
  | case3 fin enc fout hBlock out enc' hChunk ih =>
      have hChunk' := hChunk
      rw [StreamingEncryptor.encryptChunk_of_not_finalized hOpen] at hChunk'
      cases hChunk'
      obtain ⟨blocks, hBlocks, hLoop⟩ := ih hOpen
      refine ⟨(fin.read streamChunk).1 :: blocks, ?_, ?_⟩
      · rw [List.flatten_cons, hBlocks, Cursor.unread_read, Cursor.read_fst,
          List.take_append_drop]
      · rw [encryptLoop, if_neg hBlock, hChunk]
        simp only [hLoop, feed_cons, List.append_assoc]

theorem encryptContentToFile_eq (host : Host) (files : Files) (urandom : Fixed 12) {key : AESKey}
    {srcPath destPath : String}
    (hKeyId : (utf8 key.keyId).length ≤ 255) (hSrc : srcPath ∈ files) :
    encryptContentToFile gcm host urandom files srcPath destPath key =
      (.ok (), files.insert destPath (frame (utf8 key.keyId) urandom
        (gcm.sealed (rawKey key) urandom
          (((files.insert destPath []).lookup srcPath).getD [])).1
        (gcm.sealed (rawKey key) urandom
          (((files.insert destPath []).lookup srcPath).getD [])).2)) := by
  set fin := Cursor.start (((files.insert destPath []).lookup srcPath).getD []) with hFin
  set enc := streamingEncryptor gcm urandom key with hEnc
  obtain ⟨blocks, hBlocks, hLoop⟩ := encryptLoop_eq gcm fin enc
    (streamMagic ++ packByte (utf8 key.keyId).length ++ utf8 key.keyId ++ enc.iv.val) rfl
  have hSealed := gcm.encrypt_blocks (rawKey key) urandom blocks
  rw [hBlocks, hFin, Cursor.unread_start] at hSealed
  unfold encryptContentToFile
  rw [if_neg (by omega), if_neg (not_not.mpr hSrc)]
  simp only [← hFin, ← hEnc, hLoop, Finmap.insert_insert]
  rw [StreamingEncryptor.finalize_of_not_finalized rfl, ← hSealed]
  simp only [frame, List.append_assoc]
  rfl

end Encryption

/-! ## `decrypt_content_from_file` -/

section Decryption

variable {gcm : Gcm}

/-- The blocks from the one of number `n` on: what has been written, and the decryptor. -/
def decryptLoop (faults : Faults) (n : ℕ) (fin : Cursor (Uint 8)) (dec : StreamingDecryptor gcm)
    (remaining : ℕ) (fout : Bytes) : Bytes × Except Failure (StreamingDecryptor gcm) :=
  if remaining = 0 then (fout, .ok dec)
  else
    let block := (fin.read (min streamChunk remaining)).1
    if block = [] then (fout, .ok dec)
    else
      match (do fault (faults.block n); dec.decryptChunk block) with
      | .error e => (fout, .error e)
      | .ok (out, dec) =>
          decryptLoop faults (n + 1) (fin.read (min streamChunk remaining)).2 dec
            (remaining - block.length) (fout ++ out)
termination_by remaining
decreasing_by
  rename_i hDone hEnd
  exact Nat.sub_lt (Nat.pos_of_ne_zero hDone) (List.length_pos_iff.mpr hEnd)

theorem decryptLoop_eq (n : ℕ) (fin : Cursor (Uint 8)) (dec : StreamingDecryptor gcm)
    (remaining : ℕ) (fout : Bytes) (hOpen : dec.finalized = false) :
    ∃ blocks : List Bytes, blocks.flatten = fin.unread.take remaining ∧
      decryptLoop .never n fin dec remaining fout =
        (fout ++ (feed gcm.decryptUpdate dec.cipher blocks).2,
          .ok { dec with cipher := (feed gcm.decryptUpdate dec.cipher blocks).1 }) := by
  induction n, fin, dec, remaining, fout using decryptLoop.induct Faults.never with
  | case1 n fin dec fout =>
      refine ⟨[], ?_, ?_⟩
      · rw [List.take_zero, List.flatten_nil]
      · rw [decryptLoop, if_pos rfl, feed_nil, List.append_nil]
  | case2 n fin dec remaining fout hLeft block hEnd =>
      have hMin : 0 < min streamChunk remaining :=
        Nat.lt_min.mpr ⟨streamChunk_pos, Nat.pos_of_ne_zero hLeft⟩
      refine ⟨[], ?_, ?_⟩
      · rw [Cursor.unread_eq_nil_of_read fin hMin hEnd, List.flatten_nil, List.take_nil]
      · rw [decryptLoop, if_neg hLeft]
        simp only [block] at hEnd
        simp only [hEnd, if_true, feed_nil, List.append_nil]
  | case3 n fin dec remaining fout hLeft block hBlock e hError =>
      rw [StreamingDecryptor.decryptChunk_of_not_finalized hOpen] at hError
      cases hError
  | case4 n fin dec remaining fout hLeft block hBlock out dec' hChunk ih =>
      have hChunk' := hChunk
      rw [StreamingDecryptor.decryptChunk_of_not_finalized hOpen] at hChunk'
      cases hChunk'
      obtain ⟨blocks, hBlocks, hLoop⟩ := ih hOpen
      refine ⟨block :: blocks, ?_, ?_⟩
      · rw [List.flatten_cons, hBlocks, Cursor.read_append_take fin (Nat.min_le_right _ _)]
      · rw [decryptLoop, if_neg hLeft]
        simp only [block] at hBlock hChunk hLoop ⊢
        simp only [if_neg hBlock, hChunk, hLoop, feed_cons, List.append_assoc]

variable (gcm)

/-- A ciphertext file whose header has been read: the input at its first block, the decryptor
and the length of the ciphertext. -/
structure Opened where
  fin : Cursor (Uint 8)
  dec : StreamingDecryptor gcm
  ctLen : ℕ

/-- Everything up to the `StreamingDecryptor`. -/
def openStream (contents : Bytes) (contentKey : AESKey) : Except Failure (Opened gcm) := do
  let total := contents.length
  let fin := Cursor.start contents
  require ((fin.read streamMagic.length).1 = streamMagic)
    (.paidUnlock "not a streaming Tier B/C ciphertext (bad magic)")
  let fin := (fin.read streamMagic.length).2
  let kidLen ← raise (fun _ => .paidUnlock "streaming ciphertext header truncated")
    (unpackByte (fin.read 1).1)
  let fin := (fin.read 1).2
  let fin := (fin.read kidLen).2
  let iv := (fin.read streamIvLen).1
  let fin := (fin.read streamIvLen).2
  let headerLen := streamMagic.length + 1 + kidLen + streamIvLen
  let ctLen : ℤ := (total : ℤ) - headerLen - streamTagLen
  require (¬ (iv.length ≠ streamIvLen ∨ ctLen < 0))
    (.paidUnlock "streaming ciphertext truncated (no room for iv/tag)")
  let fin := fin.seek (total - streamTagLen)
  let tag := (fin.read streamTagLen).1
  let fin := (fin.read streamTagLen).2
  let fin := fin.seek headerLen
  let dec ← streamingDecryptor gcm contentKey iv tag
  pure { fin, dec, ctLen := ctLen.toNat }

/-- The state of a file of this layout behind its header. -/
def openedFrame (keyId : Bytes) (iv : Fixed 12) (ciphertext : Bytes) (tag : Fixed 16)
    (key : AESKey) : Opened gcm :=
  { fin := { contents := frame keyId iv ciphertext tag, offset := headerLen keyId }
    dec := { cipher := gcm.decryptor (rawKey key) iv tag, finalized := false }
    ctLen := ciphertext.length }

variable {keyId ciphertext : Bytes} {iv : Fixed 12} {tag : Fixed 16} {key : AESKey}

theorem openStream_frame (hKeyId : keyId.length ≤ 255) :
    openStream gcm (frame keyId iv ciphertext tag) key =
      .ok (openedFrame gcm keyId iv ciphertext tag key) := by
  have hMagic : (frame keyId iv ciphertext tag).take streamMagic.length = streamMagic :=
    List.take_left
  have hAfterMagic : (frame keyId iv ciphertext tag).drop streamMagic.length =
      packByte keyId.length ++ (keyId ++ (iv.val ++ (ciphertext ++ tag.val))) :=
    List.drop_left
  have hByte : (packByte keyId.length ++ (keyId ++ (iv.val ++ (ciphertext ++ tag.val)))).take 1 =
      packByte keyId.length := rfl
  have hAfterByte : (packByte keyId.length ++
      (keyId ++ (iv.val ++ (ciphertext ++ tag.val)))).drop 1 =
        keyId ++ (iv.val ++ (ciphertext ++ tag.val)) := rfl
  have hIv : (iv.val ++ (ciphertext ++ tag.val)).take streamIvLen = iv.val :=
    List.take_left' iv.property
  have hTag : tag.val.take streamTagLen = tag.val :=
    List.take_of_length_le tag.property.le
  have hRoom : ¬ (iv.val.length ≠ streamIvLen ∨
      ((frame keyId iv ciphertext tag).length : ℤ) -
        ((streamMagic.length + 1 + keyId.length + streamIvLen : ℕ) : ℤ) -
          (streamTagLen : ℤ) < 0) := by
    rw [length_frame, headerLen, iv.property]
    simp only [streamIvLen, ne_eq, not_true_eq_false, false_or]
    omega
  unfold openStream
  simp only [Cursor.read_fst, Cursor.unread_read, Cursor.unread_start, hMagic, hAfterMagic, hByte,
    hAfterByte, unpackByte_packByte hKeyId, raise_ok, List.drop_left, hIv, Cursor.unread_seek,
    Cursor.contents_read, Cursor.contents_start, drop_tag, hTag, ok_bind,
    require_of_pos _ trivial, require_of_pos _ hRoom, streamingDecryptor_fixed]
  refine congrArg Except.ok ?_
  rw [openedFrame, Opened.mk.injEq]
  refine ⟨rfl, rfl, ?_⟩
  rw [length_frame, headerLen]
  omega

theorem unpackByte_eq_ok_iff {b : Bytes} {n : ℕ} :
    unpackByte b = .ok n ↔ ∃ byte : Uint 8, b = [byte] ∧ byte.val = n := by
  rcases b with _ | ⟨byte, _ | ⟨second, rest⟩⟩ <;> simp [unpackByte]

theorem openStream_eq_ok_iff {contents : Bytes} {opened : Opened gcm} :
    openStream gcm contents key = .ok opened ↔
      ∃ keyId iv ciphertext tag, keyId.length ≤ 255 ∧
        contents = frame keyId iv ciphertext tag ∧
        opened = openedFrame gcm keyId iv ciphertext tag key := by
  constructor
  · intro h
    have hParsed := h
    unfold openStream at hParsed
    simp only [bind_eq_ok_iff, require_eq_ok_iff, raise_eq_ok_iff, Cursor.read_fst,
      Cursor.unread_read, Cursor.unread_start] at hParsed
    obtain ⟨_, hMagic, kidLen, hByte, _, hRoom, -⟩ := hParsed
    obtain ⟨byte, hTake, hKidLen⟩ := unpackByte_eq_ok_iff.mp hByte
    rw [not_or, not_not, not_lt] at hRoom
    obtain ⟨hIv, hLong⟩ := hRoom
    have hMagicLength : streamMagic.length = 8 := rfl
    simp only [hMagicLength, streamIvLen, streamTagLen] at hIv hLong hTake hMagic
    set afterByte := (contents.drop 8).drop 1 with hAfterByte
    have hAfterByteLength : afterByte.length = contents.length - 9 := by
      rw [hAfterByte, List.length_drop, List.length_drop]
      omega
    have hKeyIdLength : (afterByte.take kidLen).length = kidLen :=
      List.length_take_of_le (by omega)
    set body := (afterByte.drop kidLen).drop 12 with hBody
    have hBodyLength : body.length = contents.length - (21 + kidLen) := by
      rw [hBody, List.length_drop, List.length_drop, hAfterByteLength]
      omega
    have hTag : (body.drop (body.length - 16)).length = 16 := by
      rw [List.length_drop]
      omega
    have hPack : packByte kidLen = [byte] := by
      rw [packByte, ← hKidLen, Fin.ofNat_val_eq_self]
    have hFrame : contents = frame (afterByte.take kidLen) ⟨(afterByte.drop kidLen).take 12, hIv⟩
        (body.take (body.length - 16)) ⟨body.drop (body.length - 16), hTag⟩ := by
      rw [frame, hKeyIdLength, hPack, List.take_append_drop, hBody, List.take_append_drop,
        List.take_append_drop, ← hTake, hAfterByte, List.take_append_drop, ← hMagic,
        List.take_append_drop]
    have hKeyId : (afterByte.take kidLen).length ≤ 255 := by
      have hByteLt := byte.isLt
      omega
    refine ⟨_, _, _, _, hKeyId, hFrame, ?_⟩
    rw [hFrame, openStream_frame gcm hKeyId] at h
    exact (Except.ok.inj h).symm
  · rintro ⟨keyId, iv, ciphertext, tag, hKeyId, rfl, rfl⟩
    exact openStream_frame gcm hKeyId

variable {gcm}

/-- Everything from `tempfile.mkstemp` on. -/
def decryptOpened (host : Host) (faults : Faults) (files : Files) (destPath : String)
    (opened : Opened gcm) : Except Failure Unit × Files :=
  match fault faults.mkstemp with
  | .error e => (.error e, files)
  | .ok () =>
      let tmp := host.temp files destPath
      let written := decryptLoop faults 0 opened.fin opened.dec opened.ctLen []
      let files := files.insert tmp written.1
      match written.2 >>= StreamingDecryptor.finalize with
      | .error e =>
          (.error (.paidUnlock
            ("streaming ciphertext failed authentication (tampered or wrong key): " ++ e.text)),
            unlink files tmp)
      | .ok _ => replace host faults files tmp destPath

variable (gcm)

def decryptContentFromFile (host : Host) (faults : Faults) (files : Files)
    (srcPath destPath : String) (contentKey : AESKey) : Except Failure Unit × Files :=
  match files.lookup srcPath with
  | none => (.error (.os (host.noSuchFile srcPath)), files)
  | some contents =>
      match openStream gcm contents contentKey with
      | .error e => (.error e, files)
      | .ok opened => decryptOpened host faults files destPath opened

end Decryption

/-! ## What a decryption leaves -/

section Outcome

variable (gcm : Gcm) (host : Host) {faults : Faults} {files files' : Files}
  {srcPath destPath : String} {key : AESKey} {e : Failure} {opened : Opened gcm}

section Opening

variable (keyId ciphertext : Bytes) (iv : Fixed 12) (tag : Fixed 16) (key : AESKey)

theorem decryptLoop_openedFrame :
    ∃ fout dec, decryptLoop .never 0 (openedFrame gcm keyId iv ciphertext tag key).fin
        (openedFrame gcm keyId iv ciphertext tag key).dec ciphertext.length [] = (fout, .ok dec) ∧
      dec.finalized = false ∧
      gcm.opened (rawKey key) iv ciphertext tag =
        if gcm.verifies dec.cipher then some fout else none := by
  obtain ⟨blocks, hBlocks, hLoop⟩ := decryptLoop_eq 0
    (openedFrame gcm keyId iv ciphertext tag key).fin
    (openedFrame gcm keyId iv ciphertext tag key).dec ciphertext.length [] rfl
  refine ⟨_, _, hLoop, rfl, ?_⟩
  have hUnread : (openedFrame gcm keyId iv ciphertext tag key).fin.unread =
      ciphertext ++ tag.val := drop_headerLen
  rw [hUnread, List.take_left] at hBlocks
  rw [← hBlocks, gcm.decrypt_blocks, List.nil_append]
  rfl

theorem decryptOpened_of_opened {plaintext : Bytes}
    (hOpened : gcm.opened (rawKey key) iv ciphertext tag = some plaintext) :
    decryptOpened host .never files destPath (openedFrame gcm keyId iv ciphertext tag key) =
      (.ok (), files.insert destPath plaintext) := by
  obtain ⟨fout, dec, hLoop, hOpen, hVerdict⟩ :=
    decryptLoop_openedFrame gcm keyId ciphertext iv tag key
  have hVerifies : gcm.verifies dec.cipher = true := by
    by_contra hNot
    rw [if_neg hNot, hOpened] at hVerdict
    cases hVerdict
  rw [if_pos hVerifies, hOpened] at hVerdict
  cases hVerdict
  unfold decryptOpened
  have hLen : (openedFrame gcm keyId iv ciphertext tag key).ctLen = ciphertext.length := rfl
  simp only [Faults.never, fault_none, hLen] at hLoop ⊢
  rw [hLoop, ok_bind, StreamingDecryptor.finalize_of_not_finalized hOpen, if_pos hVerifies]
  exact replace_written host (host.temp_fresh files destPath) rfl _

theorem decryptOpened_of_rejected
    (hOpened : gcm.opened (rawKey key) iv ciphertext tag = none) :
    decryptOpened host .never files destPath (openedFrame gcm keyId iv ciphertext tag key) =
      (.error (.paidUnlock ("streaming ciphertext failed authentication " ++
        "(tampered or wrong key): authentication failed")), files) := by
  obtain ⟨fout, dec, hLoop, hOpen, hVerdict⟩ :=
    decryptLoop_openedFrame gcm keyId ciphertext iv tag key
  have hVerifies : ¬ gcm.verifies dec.cipher = true := by
    intro hYes
    rw [if_pos hYes, hOpened] at hVerdict
    cases hVerdict
  unfold decryptOpened
  have hLen : (openedFrame gcm keyId iv ciphertext tag key).ctLen = ciphertext.length := rfl
  simp only [Faults.never, fault_none, hLen] at hLoop ⊢
  rw [hLoop, ok_bind, StreamingDecryptor.finalize_of_not_finalized hOpen, if_neg hVerifies]
  simp only [Failure.text]
  rw [unlink, erase_insert (host.temp_fresh files destPath)]
  rfl
end Opening

theorem decryptOpened_error
    (h : decryptOpened host faults files destPath opened = (.error e, files')) :
    files' = files ∨
      host.temp files destPath ≠ destPath ∧ faults.replace ≠ none ∧
        ∃ written, files' = files.insert (host.temp files destPath) written := by
  unfold decryptOpened at h
  cases hMkstemp : fault faults.mkstemp with
  | error e' =>
      rw [hMkstemp] at h
      cases h
      exact .inl rfl
  | ok _ =>
      simp only [hMkstemp] at h
      split at h
      case h_1 =>
        cases h
        exact .inl (erase_insert (host.temp_fresh files destPath) _)
      case h_2 =>
        obtain ⟨hOther, hReplace, hFiles⟩ := replace_error host h
        exact .inr ⟨hOther, hReplace, _, hFiles⟩

theorem decryptContentFromFile_error
    (h : decryptContentFromFile gcm host faults files srcPath destPath key = (.error e, files')) :
    files' = files ∨
      ∃ contents opened, files.lookup srcPath = some contents ∧
        openStream gcm contents key = .ok opened ∧
        decryptOpened host faults files destPath opened = (.error e, files') := by
  unfold decryptContentFromFile at h
  split at h
  case h_1 =>
    cases h
    exact .inl rfl
  case h_2 contents hSrc =>
    split at h
    case h_1 =>
      cases h
      exact .inl rfl
    case h_2 opened hOpened => exact .inr ⟨contents, opened, hSrc, hOpened, h⟩

theorem destination_of_raise
    (h : decryptContentFromFile gcm host faults files srcPath destPath key = (.error e, files')) :
    files'.lookup destPath = files.lookup destPath := by
  rcases decryptContentFromFile_error gcm host h with hFiles | ⟨contents, opened, -, -, hOpened⟩
  · rw [hFiles]
  · rcases decryptOpened_error gcm host hOpened with hFiles | ⟨hOther, -, written, hFiles⟩
    · rw [hFiles]
    · rw [hFiles, Finmap.lookup_insert_of_ne _ hOther.symm]

theorem decryptContentFromFile_ok_iff :
    decryptContentFromFile gcm host .never files srcPath destPath key = (.ok (), files') ↔
      ∃ keyId iv plaintext, keyId.length ≤ 255 ∧
        files.lookup srcPath = some (frame keyId iv (gcm.sealed (rawKey key) iv plaintext).1
          (gcm.sealed (rawKey key) iv plaintext).2) ∧
        files' = files.insert destPath plaintext := by
  constructor
  · intro h
    unfold decryptContentFromFile at h
    split at h
    case h_1 => cases h
    case h_2 contents hSrc =>
      split at h
      case h_1 => cases h
      case h_2 opened hOpened =>
        obtain ⟨keyId, iv, ciphertext, tag, hKeyId, rfl, rfl⟩ :=
          (openStream_eq_ok_iff gcm).mp hOpened
        cases hVerdict : gcm.opened (rawKey key) iv ciphertext tag with
        | none =>
            rw [decryptOpened_of_rejected gcm host _ _ _ _ _ hVerdict] at h
            cases h
        | some plaintext =>
            rw [decryptOpened_of_opened gcm host _ _ _ _ _ hVerdict] at h
            have hSealed := gcm.sealed_of_opened _ _ _ _ _ hVerdict
            refine ⟨keyId, iv, plaintext, hKeyId, ?_, ?_⟩
            · rw [hSrc, hSealed]
            · exact (congrArg Prod.snd h).symm
  · rintro ⟨keyId, iv, plaintext, hKeyId, hSrc, rfl⟩
    unfold decryptContentFromFile
    simp only [hSrc, openStream_frame gcm hKeyId]
    exact decryptOpened_of_opened gcm host _ _ _ _ _ (gcm.opened_sealed _ _ _)

/-- What was encrypted to a file decrypts to the plaintext under any key with the same bytes, and
a decryption that raises leaves its destination as it was. -/
theorem decrypt_encrypt (files : Files) :
    (∀ (urandom : Fixed 12) (srcPath ciphertextPath destPath : String) (plaintext : Bytes)
      (key reader : AESKey), (utf8 key.keyId).length ≤ 255 → files.lookup srcPath = some plaintext →
        srcPath ≠ ciphertextPath → reader.keyBytes = key.keyBytes →
        ∃ encrypted,
          encryptContentToFile gcm host urandom files srcPath ciphertextPath key =
            (.ok (), encrypted) ∧
          decryptContentFromFile gcm host .never encrypted ciphertextPath destPath reader =
            (.ok (), encrypted.insert destPath plaintext)) ∧
    ∀ (faults : Faults) (srcPath destPath : String) (key : AESKey) (e : Failure) (files' : Files),
      decryptContentFromFile gcm host faults files srcPath destPath key = (.error e, files') →
        files'.lookup destPath = files.lookup destPath := by
  refine ⟨?_, fun _ _ _ _ _ _ h => destination_of_raise gcm host h⟩
  intro urandom srcPath ciphertextPath destPath plaintext key reader hKeyId hSrc hPaths hKey
  have hMem : srcPath ∈ files := Finmap.lookup_isSome.mp (by rw [hSrc]; rfl)
  refine ⟨_, encryptContentToFile_eq gcm host files urandom hKeyId hMem, ?_⟩
  have hRead : ((files.insert ciphertextPath []).lookup srcPath).getD [] = plaintext := by
    rw [Finmap.lookup_insert_of_ne _ hPaths, hSrc, Option.getD_some]
  have hRaw : rawKey reader = rawKey key := Subtype.ext hKey
  rw [hRead, decryptContentFromFile_ok_iff]
  refine ⟨utf8 key.keyId, urandom, plaintext, hKeyId, ?_, rfl⟩
  rw [Finmap.lookup_insert, hRaw]

end Outcome

/-! ## A test vector -/

def zeroKey : AESKey :=
  { keyId := "paid", keyBytes := List.replicate 32 0, length_keyBytes := List.length_replicate }

def zeroIv : Fixed 12 := ⟨List.replicate 12 0, List.length_replicate⟩

def vectorTag : Fixed 16 :=
  ⟨[208, 209, 200, 167, 153, 153, 107, 240, 38, 91, 152, 181, 212, 138, 185, 25], rfl⟩

/-- Counter mode with what AES-256-GCM gives for 16 zero bytes under the key and the nonce of
zeros. -/
def vectorGcm : Gcm :=
  counterMode
    (fun _ _ i =>
      [206, 167, 64, 61, 77, 96, 107, 110, 7, 78, 197, 211, 186, 243, 157, 24].getD i 0)
    (fun _ _ _ => vectorTag)

noncomputable def vectorHost : Host where
  noSuchFile path := path
  temp files _ := (Infinite.exists_notMem_finset files.keys).choose
  temp_fresh files _ :=
    mt Finmap.mem_keys.mpr (Infinite.exists_notMem_finset files.keys).choose_spec

def vectorFiles : Files :=
  Finmap.singleton "plain" (List.replicate 16 0)

theorem decrypt_encrypt_vector :
    (∃ encrypted,
      encryptContentToFile vectorGcm vectorHost zeroIv vectorFiles "plain" "cipher" zeroKey =
        (.ok (), encrypted) ∧
      decryptContentFromFile vectorGcm vectorHost .never encrypted "cipher" "out"
          { zeroKey with keyId := "paid-unlock" } =
        (.ok (), encrypted.insert "out" (List.replicate 16 0))) ∧
    decryptContentFromFile vectorGcm vectorHost .never vectorFiles "plain" "out" zeroKey =
      (.error (.paidUnlock "not a streaming Tier B/C ciphertext (bad magic)"), vectorFiles) ∧
    vectorFiles.lookup "out" = vectorFiles.lookup "out" :=
  ⟨(decrypt_encrypt vectorGcm vectorHost vectorFiles).1 zeroIv "plain" "cipher" "out" _ zeroKey
      { zeroKey with keyId := "paid-unlock" } (by decide +kernel) Finmap.lookup_singleton_eq
      (by decide) rfl,
    rfl,
    (decrypt_encrypt vectorGcm vectorHost vectorFiles).2 .never "plain" "out" zeroKey _ _ rfl⟩

end Prsm.Storage.StreamingCiphertext
