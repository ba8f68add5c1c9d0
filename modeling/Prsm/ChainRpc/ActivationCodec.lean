import Prsm.ChainRpc.ShardStreaming

/-!
# Activations on the wire

`encode_activation` turns an array into its bytes, its shape and its dtype's name, and
`decode_activation` makes the array again.  A long activation is sent in chunks.  The size that
`decode_activation` checks is numpy's product of the shape, which wraps around in 64 bits.
-/

namespace Prsm.ChainRpc

open Foundations
open Evm (Bytes)
open Storage (Sha256)

/-! ## Arrays -/

def allowedDtypes : List String :=
  ["float16", "float32", "float64", "int8", "int16", "int32", "int64", "uint8", "bool"]

inductive Dtype
  | float16
  | float32
  | float64
  | int8
  | int16
  | int32
  | int64
  | uint8
  | bool
  | other (name : String) (itemsize : ℕ) (excluded : name ∉ allowedDtypes)
  deriving DecidableEq

namespace Dtype

/-- `str(dtype)`. -/
def str : Dtype → String
  | float16 => "float16"
  | float32 => "float32"
  | float64 => "float64"
  | int8 => "int8"
  | int16 => "int16"
  | int32 => "int32"
  | int64 => "int64"
  | uint8 => "uint8"
  | bool => "bool"
  | other name _ _ => name

def itemsize : Dtype → ℕ
  | float16 => 2
  | float32 => 4
  | float64 => 8
  | int8 => 1
  | int16 => 2
  | int32 => 4
  | int64 => 8
  | uint8 => 1
  | bool => 1
  | other _ itemsize _ => itemsize

/-- `np.dtype(dtype_str)`, of an allowed name. -/
def ofStr (dtypeStr : String) : Option Dtype :=
  [float16, float32, float64, int8, int16, int32, int64, uint8, bool].find? (·.str = dtypeStr)

theorem ofStr_str {d : Dtype} (h : d.str ∈ allowedDtypes) : ofStr d.str = some d := by
  cases d
  case other name itemsize excluded => exact absurd h excluded
  all_goals decide +kernel

theorem ofStr_itemsize_pos {dtypeStr : String} {d : Dtype} (h : ofStr dtypeStr = some d) :
    0 < d.itemsize := by
  have hListed := List.mem_of_find?_eq_some h
  simp only [List.mem_cons, List.not_mem_nil, or_false] at hListed
  rcases hListed with rfl | rfl | rfl | rfl | rfl | rfl | rfl | rfl | rfl <;> decide

end Dtype

/-- `numpy.ndarray`, with the bytes of its elements in C order. -/
@[ext]
structure NdArray where
  dtype : Dtype
  shape : List ℕ
  data : Bytes
  length_data : data.length = shape.prod * dtype.itemsize
  size_lt : shape.prod < 2 ^ 63
  deriving DecidableEq

def NdArray.nbytes (a : NdArray) : ℕ :=
  a.shape.prod * a.dtype.itemsize

inductive ActivationCodecError
  | unsupportedDtype (dtypeStr : String)
  | shapeNotPositive (shape : List ℤ)
  | sizeMismatch (size : ℕ) (shape : List ℤ) (dtypeStr : String) (expected : ℤ)
  | reassemblyFailed (cause : StreamingError)
  deriving DecidableEq

/-- What the codec can raise. -/
inductive Raised
  | activationCodec (e : ActivationCodecError)
  | streaming (e : StreamingError)
  | valueError
  deriving DecidableEq

/-! ## `encode_activation` and `decode_activation` -/

/-- The shape of `np.ascontiguousarray`, which has at least one dimension. -/
def contiguousShape (shape : List ℕ) : List ℕ :=
  if shape = [] then [1] else shape

def encodeActivation (a : NdArray) : Except Raised (Bytes × List ℤ × String) := do
  require (a.dtype.str ∈ allowedDtypes) (.activationCodec (.unsupportedDtype a.dtype.str))
  return (a.data, (contiguousShape a.shape).map Nat.cast, a.dtype.str)

/-- An integer as numpy's `int64` keeps it. -/
def wrap64 (n : ℤ) : ℤ :=
  n.bmod (2 ^ 64)

/-- `np.frombuffer(blob, dtype).reshape(shape)`. -/
def reshape (dtype : Dtype) (shape : List ℕ) (blob : Bytes) : Except Raised NdArray :=
  if h : blob.length = shape.prod * dtype.itemsize ∧ shape.prod < 2 ^ 63 then
    .ok ⟨dtype, shape, blob, h.1, h.2⟩
  else .error .valueError

def decodeActivation (blob : Bytes) (shape : List ℤ) (dtypeStr : String) :
    Except Raised NdArray := do
  require (∀ d ∈ shape, 0 < d) (.activationCodec (.shapeNotPositive shape))
  match Dtype.ofStr dtypeStr with
  | none => .error (.activationCodec (.unsupportedDtype dtypeStr))
  | some dtype =>
      let expected := wrap64 shape.prod * dtype.itemsize
      require (expected = blob.length)
        (.activationCodec (.sizeMismatch blob.length shape dtypeStr expected))
      reshape dtype (shape.map Int.toNat) blob

/-! ## Activations in chunks -/

structure ChunkedActivation where
  manifest : ShardManifest
  chunks : List ShardChunk
  shape : List ℤ
  dtypeStr : String

/-- A payload in chunks; a chunk size that is not positive is a `ValueError`. -/
def chunked (sha : Sha256) (activationId : String) (chunkBytes : ℤ)
    (encoded : Bytes × List ℤ × String) : Except Raised ChunkedActivation :=
  match chunk sha chunkBytes activationId encoded.1 with
  | none => .error .valueError
  | some (manifest, chunks) => .ok ⟨manifest, chunks, encoded.2.1, encoded.2.2⟩

def chunkActivation (sha : Sha256) (activationId : String) (chunkBytes : ℤ) (a : NdArray) :
    Except Raised ChunkedActivation := do
  let encoded ← encodeActivation a
  chunked sha activationId chunkBytes encoded

/-- The assembler is opened before the `try`. -/
def reassembleChunked (sha : Sha256) (cap : ℤ) (c : ChunkedActivation)
    (chunks : List ShardChunk) : Except Raised NdArray := do
  let assembler ← raise Raised.streaming (ShardAssembler.opened cap c.manifest)
  let payload ← raise (fun e => Raised.activationCodec (.reassemblyFailed e)) do
    let assembler ← ShardAssembler.feedAll sha assembler chunks
    assembler.finalize sha
  decodeActivation payload c.shape c.dtypeStr

inductive WirePayload
  | inline (encoded : Bytes × List ℤ × String)
  | streamed (c : ChunkedActivation)

def shouldChunk (threshold : ℤ) (blob : Bytes) : Prop :=
  threshold < blob.length

instance (threshold : ℤ) (blob : Bytes) : Decidable (shouldChunk threshold blob) :=
  inferInstanceAs (Decidable (threshold < _))

def encodeForWire (sha : Sha256) (activationId : String) (threshold chunkBytes : ℤ)
    (a : NdArray) : Except Raised WirePayload := do
  let encoded ← encodeActivation a
  if ¬ shouldChunk threshold encoded.1 then
    return .inline encoded
  else
    return .streamed (← chunked sha activationId chunkBytes encoded)

/-! ## There and back -/

/-- The array that comes back inline. -/
def backInline (a : NdArray) : Except Raised NdArray := do
  let encoded ← encodeActivation a
  decodeActivation encoded.1 encoded.2.1 encoded.2.2

/-- The array that comes back in chunks, to a receiver with a cap. -/
def backStreamed (sha : Sha256) (activationId : String) (chunkBytes cap : ℤ) (a : NdArray) :
    Except Raised NdArray := do
  let c ← chunkActivation sha activationId chunkBytes a
  reassembleChunked sha cap c c.chunks

/-- The array that comes back from what `encode_for_wire` makes. -/
def backFromWire (sha : Sha256) (activationId : String) (threshold chunkBytes cap : ℤ)
    (a : NdArray) : Except Raised NdArray := do
  match ← encodeForWire sha activationId threshold chunkBytes a with
  | .inline encoded => decodeActivation encoded.1 encoded.2.1 encoded.2.2
  | .streamed c => reassembleChunked sha cap c c.chunks

variable {shape : List ℤ} {blob : Bytes} {dtypeStr : String} {c : ChunkedActivation}
  {chunks : List ShardChunk}

theorem prod_map_toNat (h : ∀ d ∈ shape, 0 < d) :
    ((shape.map Int.toNat).prod : ℤ) = shape.prod := by
  induction shape with
  | nil => rfl
  | cons d shape ih =>
      rw [List.forall_mem_cons] at h
      rw [List.map_cons, List.prod_cons, List.prod_cons, Nat.cast_mul, ih h.2,
        Int.toNat_of_nonneg h.1.le]

theorem map_toNat_cast (shape : List ℕ) :
    (shape.map (Nat.cast : ℕ → ℤ)).map Int.toNat = shape := by
  rw [List.map_map]
  exact List.map_id shape

theorem wrap64_of_lt {n : ℕ} (h : n < 2 ^ 63) : wrap64 n = n :=
  Int.bmod_eq_of_le_mul_two (by omega) (by omega)

theorem reshape_eq_ok_iff {dtype : Dtype} {shape : List ℕ} {a : NdArray} :
    reshape dtype shape blob = .ok a ↔ a.dtype = dtype ∧ a.shape = shape ∧ a.data = blob := by
  unfold reshape
  constructor
  · intro h
    split at h
    case isTrue =>
      obtain rfl := Except.ok.inj h
      exact ⟨rfl, rfl, rfl⟩
    case isFalse => cases h
  · rintro ⟨rfl, rfl, rfl⟩
    rw [dif_pos ⟨a.length_data, a.size_lt⟩]

theorem decodeActivation_eq_ok_iff
    {a : NdArray} :
    decodeActivation blob shape dtypeStr = .ok a ↔
      (∀ d ∈ shape, 0 < d) ∧ Dtype.ofStr dtypeStr = some a.dtype ∧
        wrap64 shape.prod * a.dtype.itemsize = blob.length ∧
        a.shape = shape.map Int.toNat ∧ a.data = blob := by
  simp only [decodeActivation, bind_eq_ok_iff, require_eq_ok_iff]
  cases hDtype : Dtype.ofStr dtypeStr with
  | none => simp
  | some dtype =>
      simp only [bind_eq_ok_iff, require_eq_ok_iff, reshape_eq_ok_iff, Option.some.injEq]
      constructor
      · rintro ⟨-, hPos, -, hSize, rfl, hShape, hData⟩
        exact ⟨hPos, rfl, hSize, hShape, hData⟩
      · rintro ⟨hPos, rfl, hSize, hShape, hData⟩
        exact ⟨(), hPos, (), hSize, rfl, hShape, hData⟩

variable {sha : Sha256} {activationId : String} {threshold chunkBytes cap : ℤ} {a : NdArray}

theorem encodeActivation_of_allowed (h : a.dtype.str ∈ allowedDtypes) :
    encodeActivation a =
      .ok (a.data, (contiguousShape a.shape).map Nat.cast, a.dtype.str) := by
  rw [encodeActivation, require_of_pos _ h]
  rfl

theorem contiguousShape_of_ne_nil {shape : List ℕ} (h : shape ≠ []) :
    contiguousShape shape = shape :=
  if_neg h

theorem decode_encoded_iff (hAllowed : a.dtype.str ∈ allowedDtypes) (hShape : a.shape ≠ []) :
    decodeActivation a.data ((contiguousShape a.shape).map Nat.cast) a.dtype.str =
        .ok a ↔
      ∀ d ∈ a.shape, 0 < d := by
  have hProd : (a.shape.map (Nat.cast : ℕ → ℤ)).prod = (a.shape.prod : ℕ) :=
    (Nat.cast_list_prod a.shape).symm
  rw [contiguousShape_of_ne_nil hShape, decodeActivation_eq_ok_iff, hProd,
    wrap64_of_lt a.size_lt, map_toNat_cast, Dtype.ofStr_str hAllowed, a.length_data]
  simp

theorem backInline_of_allowed (h : a.dtype.str ∈ allowedDtypes) :
    backInline a = decodeActivation a.data
      ((contiguousShape a.shape).map Nat.cast) a.dtype.str := by
  rw [backInline, encodeActivation_of_allowed h]
  rfl

theorem reassembleChunked_eq_ok_iff :
    reassembleChunked sha cap c chunks = .ok a ↔
      c.manifest.payloadBytes ≤ cap ∧ ShardAssembler.Declares sha c.manifest chunks ∧
        decodeActivation (chunks.map (·.data)).flatten c.shape c.dtypeStr = .ok a := by
  have hReassembled := fun payload =>
    @ShardAssembler.reassemble_eq_ok_iff sha cap c.manifest chunks payload
  simp only [ShardAssembler.reassemble, bind_eq_ok_iff] at hReassembled
  simp only [reassembleChunked, bind_eq_ok_iff, raise_eq_ok_iff]
  constructor
  · rintro ⟨opened, hOpened, payload, hPayload, hDecoded⟩
    obtain ⟨hCap, hDeclared, rfl⟩ := (hReassembled payload).mp ⟨opened, hOpened, hPayload⟩
    exact ⟨hCap, hDeclared, hDecoded⟩
  · rintro ⟨hCap, hDeclared, hDecoded⟩
    obtain ⟨opened, hOpened, hPayload⟩ := (hReassembled _).mpr ⟨hCap, hDeclared, rfl⟩
    exact ⟨opened, hOpened, _, hPayload, hDecoded⟩

theorem streamed_iff {encoded : Bytes × List ℤ × String} :
    (∃ c, chunked sha activationId chunkBytes encoded = .ok c ∧
        reassembleChunked sha cap c c.chunks = .ok a) ↔
      0 < chunkBytes ∧ encoded.1.length ≤ cap ∧
        decodeActivation encoded.1 encoded.2.1 encoded.2.2 = .ok a := by
  unfold chunked
  cases hChunked : chunk sha chunkBytes activationId encoded.1 with
  | none =>
      have hSize : ¬ 0 < chunkBytes := by
        intro hPos
        rw [chunk, if_neg (not_le.mpr hPos)] at hChunked
        cases hChunked
      simp [hSize]
  | some sent =>
      obtain ⟨manifest, chunks⟩ := sent
      have hSize : 0 < chunkBytes := by
        by_contra hNot
        rw [chunk, if_pos (not_lt.mp hNot)] at hChunked
        cases hChunked
      obtain ⟨hDeclared, hBytes, hPayload⟩ := declares_chunk hChunked
      constructor
      · rintro ⟨c, hc, hBack⟩
        obtain rfl := Except.ok.inj hc
        obtain ⟨hCap, -, hDecoded⟩ := reassembleChunked_eq_ok_iff.mp hBack
        rw [hPayload] at hDecoded
        exact ⟨hSize, hBytes ▸ hCap, hDecoded⟩
      · rintro ⟨-, hCap, hDecoded⟩
        refine ⟨_, rfl, reassembleChunked_eq_ok_iff.mpr ⟨?_, hDeclared, ?_⟩⟩
        · rw [hBytes]
          exact hCap
        · rw [hPayload]
          exact hDecoded

/-- An array of an allowed dtype with at least one dimension comes back inline when no dimension
is zero, in chunks when moreover the chunks have a size and the receiver allows the bytes, and
from what `encode_for_wire` chooses when the path it chooses allows it. -/
theorem backFromWire_eq_iff (sha : Sha256) (activationId : String)
    (threshold chunkBytes cap : ℤ) (a : NdArray) (hAllowed : a.dtype.str ∈ allowedDtypes)
    (hShape : a.shape ≠ []) :
    (backInline a = .ok a ↔ ∀ d ∈ a.shape, 0 < d) ∧
      (backStreamed sha activationId chunkBytes cap a = .ok a ↔
        0 < chunkBytes ∧ a.data.length ≤ cap ∧ ∀ d ∈ a.shape, 0 < d) ∧
      (backFromWire sha activationId threshold chunkBytes cap a = .ok a ↔
        (a.data.length ≤ threshold ∨ 0 < chunkBytes ∧ a.data.length ≤ cap) ∧
          ∀ d ∈ a.shape, 0 < d) := by
  have hEncoded := encodeActivation_of_allowed hAllowed
  have hInline := decode_encoded_iff hAllowed hShape
  have hStreamed := @streamed_iff sha activationId chunkBytes cap a
    (a.data, (contiguousShape a.shape).map Nat.cast, a.dtype.str)
  rw [hInline] at hStreamed
  refine ⟨?_, ?_, ?_⟩
  · rw [backInline_of_allowed hAllowed, hInline]
  · rw [← hStreamed, backStreamed, chunkActivation, hEncoded]
    exact bind_eq_ok_iff
  · rw [backFromWire, encodeForWire, hEncoded]
    simp only [ok_bind]
    by_cases hLong : shouldChunk threshold a.data
    · have hThreshold : ¬ (a.data.length : ℤ) ≤ threshold := not_le.mpr hLong
      simp only [hLong, not_true_eq_false, if_false, bind_eq_ok_iff, hThreshold, false_or,
        and_assoc]
      rw [← hStreamed]
      constructor
      · rintro ⟨sent, ⟨c, hChunked, hSent⟩, hBack⟩
        obtain rfl := Except.ok.inj hSent
        exact ⟨c, hChunked, hBack⟩
      · rintro ⟨c, hChunked, hBack⟩
        exact ⟨.streamed c, ⟨c, hChunked, rfl⟩, hBack⟩
    · have hThreshold : (a.data.length : ℤ) ≤ threshold := not_lt.mp hLong
      simp only [hLong, not_false_eq_true, if_true, hThreshold, true_or, true_and]
      exact hInline

def oneRow : NdArray :=
  ⟨.float32, [1, 3], List.replicate 12 0, rfl, Nat.lt_of_sub_eq_succ rfl⟩

def emptyBatch : NdArray :=
  ⟨.float32, [0, 3], [], rfl, Nat.two_pow_pos 63⟩

theorem backFromWire_oneRow :
    backFromWire (Sha256.ofTable []) "r::0" 4 5 100 oneRow = .ok oneRow :=
  (backFromWire_eq_iff (Sha256.ofTable []) "r::0" 4 5 100 oneRow (by decide +kernel)
    (by decide)).2.2.mpr ⟨Or.inr (by decide), by decide⟩

/-- A batch without rows is encoded, and not decoded. -/
theorem backInline_emptyBatch :
    emptyBatch.dtype.str ∈ allowedDtypes ∧
      backInline emptyBatch = .error (.activationCodec (.shapeNotPositive [0, 3])) := by
  decide +kernel

/-! ## What a peer can send -/

/-- The size that is computed is that of the bytes only because the product wraps around. -/
def Wraps (shape : List ℤ) (dtypeStr : String) (size : ℤ) : Prop :=
  (∀ d ∈ shape, 0 < d) ∧ ∃ dtype, Dtype.ofStr dtypeStr = some dtype ∧
    wrap64 shape.prod * dtype.itemsize = size ∧ shape.prod * dtype.itemsize ≠ size

/-- An array of the kind wanted, or an `ActivationCodecError`. -/
structure FailsClosed (accepted : NdArray → Prop) (result : Except Raised NdArray) : Prop where
  ok : ∀ a, result = .ok a → accepted a
  error : ∀ e, result = .error e → ∃ cause, e = .activationCodec cause

theorem NdArray.nbytes_eq (a : NdArray) : a.nbytes = a.data.length :=
  a.length_data.symm

theorem decodeActivation_eq_error
    {e : Raised} (h : decodeActivation blob shape dtypeStr = .error e) :
    (∃ cause, e = .activationCodec cause) ∨
      e = .valueError ∧ Wraps shape dtypeStr blob.length := by
  simp only [decodeActivation, bind_eq_error_iff, require_eq_error_iff,
    require_eq_ok_iff] at h
  rcases h with ⟨-, rfl⟩ | ⟨-, hPos, h⟩
  · exact Or.inl ⟨_, rfl⟩
  · cases hDtype : Dtype.ofStr dtypeStr with
    | none =>
        rw [hDtype] at h
        obtain rfl := Except.error.inj h
        exact Or.inl ⟨_, rfl⟩
    | some dtype =>
        simp only [hDtype, bind_eq_error_iff, require_eq_error_iff, require_eq_ok_iff] at h
        rcases h with ⟨-, rfl⟩ | ⟨-, hSize, h⟩
        · exact Or.inl ⟨_, rfl⟩
        · right
          unfold reshape at h
          split at h
          case isTrue => cases h
          case isFalse hUnfit =>
            refine ⟨(Except.error.inj h).symm, hPos, dtype, hDtype, hSize, ?_⟩
            intro hExact
            -- a product that did not wrap would have fit
            have hProd : (shape.prod : ℤ) = wrap64 shape.prod := by
              have hItem := Dtype.ofStr_itemsize_pos hDtype
              exact mul_right_cancel₀ (by omega : (dtype.itemsize : ℤ) ≠ 0)
                (hExact.trans hSize.symm)
            have hLt : shape.prod < 2 ^ 63 := by
              rw [hProd]
              have := Int.bmod_lt (x := shape.prod) (m := 2 ^ 64) (by norm_num)
              unfold wrap64
              omega
            have hNat := prod_map_toNat hPos
            refine hUnfit ⟨?_, by omega⟩
            apply Nat.cast_injective (R := ℤ)
            rw [Nat.cast_mul, hNat, hExact]

theorem not_wraps_of_decoded
    (h : decodeActivation blob shape dtypeStr = .ok a) : ¬ Wraps shape dtypeStr blob.length := by
  obtain ⟨hPos, hDtype, -, hShape, hData⟩ := decodeActivation_eq_ok_iff.mp h
  rintro ⟨-, dtype, hDtype', -, hUnequal⟩
  obtain rfl := Option.some.inj (hDtype.symm.trans hDtype')
  have hLength := congrArg (Nat.cast (R := ℤ)) a.length_data
  rw [hData, hShape, Nat.cast_mul, prod_map_toNat hPos] at hLength
  exact hUnequal hLength.symm

theorem decodeActivation_of_wraps
    (h : Wraps shape dtypeStr blob.length) :
    decodeActivation blob shape dtypeStr = .error .valueError := by
  cases hDecoded : decodeActivation blob shape dtypeStr with
  | ok a => exact absurd h (not_wraps_of_decoded hDecoded)
  | error e =>
      rcases decodeActivation_eq_error hDecoded with ⟨cause, rfl⟩ | ⟨rfl, -⟩
      · obtain ⟨hPos, dtype, hDtype, hSize, -⟩ := h
        simp only [decodeActivation, bind_eq_error_iff, require_eq_error_iff, require_eq_ok_iff,
          hDtype] at hDecoded
        rcases hDecoded with ⟨hNot, -⟩ | ⟨-, -, ⟨hNot, -⟩ | ⟨-, -, hReshape⟩⟩
        · exact absurd hPos hNot
        · exact absurd hSize hNot
        · unfold reshape at hReshape
          split at hReshape <;> cases hReshape
      · rfl

theorem decodeActivation_failsClosed_iff (blob : Bytes) (shape : List ℤ) (dtypeStr : String) :
    FailsClosed (fun a => a.nbytes = blob.length) (decodeActivation blob shape dtypeStr) ↔
      ¬ Wraps shape dtypeStr blob.length := by
  constructor
  · intro h hWraps
    obtain ⟨cause, hCause⟩ := h.error _ (decodeActivation_of_wraps hWraps)
    cases hCause
  · intro h
    refine ⟨fun a ha => ?_, fun e he => ?_⟩
    · obtain ⟨-, -, -, -, hData⟩ := decodeActivation_eq_ok_iff.mp ha
      rw [a.nbytes_eq, hData]
    · exact (decodeActivation_eq_error he).resolve_right fun hWrapped => h hWrapped.2

theorem reassembleChunked_of_declares
    (hCap : c.manifest.payloadBytes ≤ cap)
    (hDeclared : ShardAssembler.Declares sha c.manifest chunks) :
    reassembleChunked sha cap c chunks =
      decodeActivation (chunks.map (·.data)).flatten c.shape c.dtypeStr := by
  have hReassembled := ShardAssembler.reassemble_eq_ok_iff.mpr ⟨hCap, hDeclared, rfl⟩
  rw [ShardAssembler.reassemble, bind_eq_ok_iff] at hReassembled
  obtain ⟨opened, hOpened, hPayload⟩ := hReassembled
  rw [reassembleChunked, raise_eq_ok_iff.mpr hOpened, ok_bind, raise_eq_ok_iff.mpr hPayload,
    ok_bind]

theorem reassembleChunked_eq_error
    {e : Raised} (h : reassembleChunked sha cap c chunks = .error e) :
    (¬ c.manifest.payloadBytes ≤ cap ∧
        e = .streaming (.exceedsCap c.manifest.payloadBytes cap)) ∨
      (∃ cause, e = .activationCodec (.reassemblyFailed cause)) ∨
      ShardAssembler.Declares sha c.manifest chunks ∧
        decodeActivation (chunks.map (·.data)).flatten c.shape c.dtypeStr = .error e := by
  rw [reassembleChunked, bind_eq_error_iff] at h
  rcases h with hOpened | ⟨opened, hOpened, h⟩
  · obtain ⟨cause, hCause, rfl⟩ := raise_eq_error_iff.mp hOpened
    simp only [ShardAssembler.opened, bind_eq_error_iff, require_eq_error_iff] at hCause
    rcases hCause with ⟨hCap, rfl⟩ | ⟨-, -, hReturned⟩
    · exact Or.inl ⟨hCap, rfl⟩
    · cases hReturned
  · right
    rw [raise_eq_ok_iff] at hOpened
    rw [bind_eq_error_iff] at h
    rcases h with hFed | ⟨payload, hPayload, hDecoded⟩
    · obtain ⟨cause, -, rfl⟩ := raise_eq_error_iff.mp hFed
      exact Or.inl ⟨cause, rfl⟩
    · right
      rw [raise_eq_ok_iff] at hPayload
      have hReassembled : ShardAssembler.reassemble sha cap c.manifest chunks = .ok payload := by
        rw [ShardAssembler.reassemble, hOpened, ok_bind]
        exact hPayload
      obtain ⟨-, hDeclared, rfl⟩ := ShardAssembler.reassemble_eq_ok_iff.mp hReassembled
      exact ⟨hDeclared, hDecoded⟩

/-- At every chunk, what is buffered is within what the manifest declares and the cap. -/
def BufferBounded (sha : Sha256) (cap : ℤ) (manifest : ShardManifest)
    (chunks : List ShardChunk) : Prop :=
  ∀ fed, fed <+: chunks → ∀ a b, ShardAssembler.opened cap manifest = .ok a →
    ShardAssembler.feedAll sha a fed = .ok b →
      b.buffer = [] ∨ (b.buffer.flatten.length : ℤ) ≤ min manifest.payloadBytes cap

theorem bufferBounded (sha : Sha256) (cap : ℤ) (manifest : ShardManifest)
    (chunks : List ShardChunk) : BufferBounded sha cap manifest chunks := by
  intro fed _ a b hOpened hFed
  obtain ⟨hBounded, hManifest, hMax⟩ :=
    (ShardAssembler.bounded_opened hOpened).feedAll hFed
  obtain ⟨-, rfl⟩ := ShardAssembler.opened_eq_ok_iff.mp hOpened
  have hWithin := hBounded.within
  rwa [hBounded.received, ShardAssembler.limit, hManifest, hMax] at hWithin

/-- What reassembling may return: an array of the bytes received, with the manifest's digest. -/
def Received (sha : Sha256) (manifest : ShardManifest) (chunks : List ShardChunk)
    (a : NdArray) : Prop :=
  a.nbytes = (chunks.map (·.data)).flatten.length ∧
    sha.hexdigest a.data = manifest.payloadSha256

theorem reassembleChunked_failsClosed_iff (sha : Sha256) (cap : ℤ) (c : ChunkedActivation)
    (chunks : List ShardChunk) :
    FailsClosed (Received sha c.manifest chunks) (reassembleChunked sha cap c chunks) ↔
      c.manifest.payloadBytes ≤ cap ∧
        ¬ (ShardAssembler.Declares sha c.manifest chunks ∧
          Wraps c.shape c.dtypeStr c.manifest.payloadBytes) := by
  constructor
  · intro h
    have hCap : c.manifest.payloadBytes ≤ cap := by
      by_contra hNot
      obtain ⟨cause, hCause⟩ := h.error (.streaming (.exceedsCap c.manifest.payloadBytes cap)) (by
        rw [reassembleChunked, ShardAssembler.opened, require_of_neg _ hNot]
        rfl)
      cases hCause
    refine ⟨hCap, ?_⟩
    rintro ⟨hDeclared, hWraps⟩
    rw [← hDeclared.length] at hWraps
    have hRaised : reassembleChunked sha cap c chunks = .error .valueError := by
      rw [reassembleChunked_of_declares hCap hDeclared, decodeActivation_of_wraps hWraps]
    obtain ⟨cause, hCause⟩ := h.error _ hRaised
    cases hCause
  · rintro ⟨hCap, hSound⟩
    refine ⟨fun a ha => ?_, fun e he => ?_⟩
    · obtain ⟨-, hDeclared, hDecoded⟩ := reassembleChunked_eq_ok_iff.mp ha
      obtain ⟨-, -, -, -, hData⟩ := decodeActivation_eq_ok_iff.mp hDecoded
      refine ⟨by rw [a.nbytes_eq, hData], ?_⟩
      rw [hData]
      exact hDeclared.digest
    · rcases reassembleChunked_eq_error he with ⟨hNot, -⟩ | ⟨cause, rfl⟩ | ⟨hDeclared, hDecoded⟩
      · exact absurd hCap hNot
      · exact ⟨_, rfl⟩
      · refine (decodeActivation_eq_error hDecoded).resolve_right fun hWrapped => ?_
        rw [← hDeclared.length] at hSound
        exact hSound ⟨hDeclared, hWrapped.2⟩

def declares101 : ChunkedActivation :=
  ⟨⟨"r::0", "", 101, 1, 1⟩, [], [101], "int8"⟩

end Prsm.ChainRpc
