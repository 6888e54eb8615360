import Mathlib.Data.List.Range
import Mathlib.Data.Fintype.Basic

/-!
# Byte lines: what `read` may return

A program that polls a descriptor sees one thing: the results of its `read` calls.  A `Device`
is whatever produces them, with its own state, so the error return, the end of file, the short
count and the complete read are all answers of a device.

* `ReadResult`, `ReadResult.ret`, `ReadResult.bytes` — one answer, the value `read` returns and
  the bytes it stored.
* `Device` — answers, never with more bytes than were asked for (`read_le`), and the contents an
  uninitialised local buffer happens to have.
* `fill` — a buffer after a `read` into it: the bytes delivered, then what it held before.
* `Device.Delivers` — from some state on, every request for `n` bytes is answered in full.
* `exactLine` — the line on which every `read` of `n` bytes delivers the next `n` bytes of an
  infinite stream.
-/

namespace ByteLine

/-- The answer to one `read` call. -/
inductive ReadResult where
  | error
  | data (bytes : List UInt8)
  deriving DecidableEq, Repr

/-- The value `read` returns: `-1` on error, else the count of bytes delivered. -/
def ReadResult.ret : ReadResult → ℤ
  | .error => -1
  | .data bytes => bytes.length

/-- The bytes `read` stored in the buffer. -/
def ReadResult.bytes : ReadResult → List UInt8
  | .error => []
  | .data bytes => bytes

/-- What stands behind a descriptor. -/
structure Device (δ : Type) where
  /-- `read d n`: the answer to a request for `n` bytes, and the device afterwards. -/
  read : δ → ℕ → ReadResult × δ
  /-- What an uninitialised local array of `n` bytes contains. -/
  scratch : δ → (n : ℕ) → Fin n → UInt8
  read_le : ∀ d n, (read d n).1.bytes.length ≤ n

/-- The device after requests of the given sizes. -/
def Device.after {δ : Type} (D : Device δ) (d : δ) (sizes : List ℕ) : δ :=
  sizes.foldl (fun d n => (D.read d n).2) d

/-- From `d` on, whatever is asked for before, a request for `n` bytes is answered by `n` bytes. -/
def Device.Delivers {δ : Type} (D : Device δ) (d : δ) (n : ℕ) : Prop :=
  ∀ sizes, (D.read (D.after d sizes) n).1.ret = n

/-- It still is after another request. -/
lemma Device.Delivers.after {δ : Type} {D : Device δ} {d : δ} {n : ℕ} (h : D.Delivers d n)
    (m : ℕ) : D.Delivers (D.read d m).2 n :=
  fun sizes => h (m :: sizes)

lemma Device.Delivers.length {δ : Type} {D : Device δ} {d : δ} {n : ℕ} (h : D.Delivers d n) :
    (D.read d n).1.bytes.length = n := by
  have hret : (D.read d n).1.ret = n := h []
  cases hread : (D.read d n).1 with
  | error =>
      rw [hread, ReadResult.ret] at hret
      omega
  | data bytes =>
      rw [hread, ReadResult.ret] at hret
      exact Int.ofNat.inj hret

/-- A buffer after `bytes` were read into its front. -/
def fill {n : ℕ} (buff : Fin n → UInt8) (bytes : List UInt8) : Fin n → UInt8 :=
  fun i => bytes.getD i (buff i)

/-- The next `n` bytes of a stream, from position `p`. -/
def chunk (S : ℕ → UInt8) (p n : ℕ) : List UInt8 := (List.range n).map fun i => S (p + i)

@[simp] lemma length_chunk (S : ℕ → UInt8) (p n : ℕ) : (chunk S p n).length = n := by
  simp [chunk]

/-- A complete read replaces the whole buffer. -/
@[simp] lemma fill_chunk {n : ℕ} (buff : Fin n → UInt8) (S : ℕ → UInt8) (p : ℕ) :
    fill buff (chunk S p n) = fun i : Fin n => S (p + i) := by
  funext i
  simp [fill, chunk, List.getD_eq_getElem?_getD]

/-- **Exact reads.**  The device is the stream `S`, its state the position of the next byte. -/
def exactLine (S : ℕ → UInt8) : Device ℕ where
  read p n := (.data (chunk S p n), p + n)
  scratch _ _ _ := 0
  read_le p n := by simp [ReadResult.bytes]

@[simp] lemma exactLine_read (S : ℕ → UInt8) (p n : ℕ) :
    (exactLine S).read p n = (.data (chunk S p n), p + n) := rfl

/-- An exact line delivers. -/
lemma exactLine_delivers (S : ℕ → UInt8) (p n : ℕ) : (exactLine S).Delivers p n := by
  intro sizes
  rw [exactLine_read, ReadResult.ret, length_chunk]

@[simp] lemma bytes_data (bs : List UInt8) : (ReadResult.data bs).bytes = bs := rfl

end ByteLine
