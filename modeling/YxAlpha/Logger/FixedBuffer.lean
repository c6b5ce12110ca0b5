import YxAlpha.Utility.Bytes

/-!
# Buffers of a fixed size

`FixedBuffer<N>` of `logger/logstream.h`: the bytes in `[data_, cur_)`.
-/

namespace YxAlpha

@[ext]
structure FixedBuffer (N : ℕ) where
  data : Bytes
  length_le : data.length ≤ N

/-- `kBigSize`, the size of the buffers of the logger. -/
def kBigSize : ℕ := 4000 * 1000

namespace FixedBuffer

variable {N : ℕ}

def new : FixedBuffer N := ⟨[], Nat.zero_le N⟩

def currentLength (b : FixedBuffer N) : ℕ := b.data.length

def available (b : FixedBuffer N) : ℕ := N - b.data.length

/-- `Append` drops what does not fit, and what would fill the buffer to its end. -/
def append (b : FixedBuffer N) (bytes : Bytes) : FixedBuffer N :=
  if h : bytes.length < b.available then
    { data := b.data ++ bytes
      length_le := by
        unfold available at h
        rw [List.length_append]
        omega }
  else b

theorem data_append {b : FixedBuffer N} {bytes : Bytes} (h : bytes.length < b.available) :
    (b.append bytes).data = b.data ++ bytes := by
  rw [append, dif_pos h]

theorem append_of_le {b : FixedBuffer N} {bytes : Bytes} (h : b.available ≤ bytes.length) :
    b.append bytes = b := by
  rw [append, dif_neg (Nat.not_lt.mpr h)]

end FixedBuffer

end YxAlpha
