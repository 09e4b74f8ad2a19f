/-!
Launch sizes and device code of the conversion kernels. Every kernel runs one thread per output
element with a bounds check, so any grid that reaches the last element will do. The device code is
text here: compiling and loading it is left to a driver, and on the host the conversions of
`NarrowDecimal` and `Bitmask` do its work.
-/

namespace DeviceColumns.Kernel

set_option autoImplicit false

def blockSize : Nat := 256

def maxGridSize : Nat := 2 ^ 32 - 1

structure Launch where
  grid : Nat
  block : Nat
  deriving DecidableEq

/-- The launch for `count` elements: as many blocks as hold them, one at least. -/
def Launch.covering (count : Nat) : Launch where
  grid := max 1 (min ((count + (blockSize - 1)) / blockSize) maxGridSize)
  block := blockSize

def names : List String := ["widen_decimal32", "widen_decimal64", "pack_bools"]

private def sourceLines : List String := [
  "",
  "extern \"C\" __global__ void widen_decimal32(const int* src, long long* dst, unsigned long long n) \x7b",
  "    unsigned long long i = (unsigned long long)blockIdx.x * blockDim.x + threadIdx.x;",
  "    if (i >= n) return;",
  "    long long v = (long long)src[i];",
  "    dst[2 * i] = v;",
  "    dst[2 * i + 1] = v < 0 ? -1LL : 0LL;",
  "\x7d",
  "",
  "extern \"C\" __global__ void widen_decimal64(const long long* src, long long* dst, unsigned long long n) \x7b",
  "    unsigned long long i = (unsigned long long)blockIdx.x * blockDim.x + threadIdx.x;",
  "    if (i >= n) return;",
  "    long long v = src[i];",
  "    dst[2 * i] = v;",
  "    dst[2 * i + 1] = v < 0 ? -1LL : 0LL;",
  "\x7d",
  "",
  "extern \"C\" __global__ void pack_bools(const unsigned char* src, unsigned int* dst,",
  "                                      unsigned long long n, unsigned long long words) \x7b",
  "    unsigned long long w = (unsigned long long)blockIdx.x * blockDim.x + threadIdx.x;",
  "    if (w >= words) return;",
  "    unsigned int bits = 0;",
  "    unsigned long long first = w * 32;",
  "    for (unsigned int b = 0; b < 32; ++b) \x7b",
  "        unsigned long long idx = first + b;",
  "        if (idx < n && src[idx] != 0) bits |= 1u << b;",
  "    \x7d",
  "    dst[w] = bits;",
  "\x7d",
  ""]

def source : String := "\n".intercalate sourceLines

end DeviceColumns.Kernel
