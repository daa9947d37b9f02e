import Retarget.Target.Portable

/-!
# The x86 family

Levels of the x86 instruction set from the bare processor up to AVX2, as C with intrinsics. Each
level adds rules and inherits the rest. Scalars are computed in the first lane of a register, so
that scalar and vector code use the same instructions. From AVX on, vectors of 256 bits are kept in
registers.
-/

namespace Retarget.Intrinsics

open Rule (write)

/-- Reads the cycle counter, after all instructions before it. -/
def readTimeStamp : String :=
  "\x7b\x7b\n" ++
  "    uint32_t cycles_hi = 0, cycles_lo = 0;\n" ++
  "    asm volatile (\n" ++
  "        \"cpuid\\n\\t\"\n" ++
  "        \"rdtsc\\n\\t\"\n" ++
  "        \"mov %%edx, %0\\n\\t\"\n" ++
  "        \"mov %%eax, %1\\n\\t\"\n" ++
  "        : \"=r\" (cycles_hi), \"=r\" (cycles_lo)\n" ++
  "        :: \"%rax\", \"%rbx\", \"%rcx\", \"%rdx\");\n" ++
  "    {r} = ((uint64_t) cycles_hi << 32) | cycles_lo;\n" ++
  "\x7d\x7d\n"

/-- How a scalar goes into the first lane of a register and comes back. -/
structure Lane where
  set : String
  get : String
  layout : Register

def singleLane : Lane := ⟨"_mm_set_ss", "_mm_cvtss_f32", .m128v1float32⟩

def doubleLane : Lane := ⟨"_mm_set_sd", "_mm_cvtsd_f64", .m128v1float64⟩

/-- An instruction on scalars in the first lane of registers. -/
def Lane.apply (lane : Lane) (instruction : String) (arity : Nat) : Template :=
  let operands := (List.range arity).map fun index =>
    ((Template.call lane.set).withArguments [.operand index]).withOutput (.register lane.layout)
  (Template.call lane.get).applyTo
    [((Template.call instruction).applyTo operands).withOutput (.register lane.layout)]

/-- An instruction on scalars of single precision. -/
def single (header instruction : String) (arity : Nat) : Rule :=
  write (.uniform .binary32 arity) ((singleLane.apply instruction arity).withHeader header)

/-- An instruction on scalars of double precision. -/
def double (header instruction : String) (arity : Nat) : Rule :=
  write (.uniform .binary64 arity) ((doubleLane.apply instruction arity).withHeader header)

/-- An instruction on whole registers. -/
def packed (layout : Register) (header instruction : String) (arity : Nat) : Rule :=
  write (.uniform (.register layout) arity) ((Template.call instruction).withHeader header)

/-- An intrinsic that converts one format to another. -/
def converting (result operand : Format) (header function : String) : Rule :=
  write (.exact result [operand]) ((Template.call function).withHeader header)

/-- The header with the layout of vectors in memory. -/
def vectorHeader : String := "ml_vector_lib.h"

def loading (layout : Register) (vector : Format) (header text : String) : Rule :=
  write (.exact (.register layout) [vector])
    (((Template.pattern text).withHeader header).withHeader vectorHeader)

def storing (layout : Register) (vector : Format) (header text : String) : Rule :=
  write (.exact vector [.register layout])
    (((Template.pattern text).withHeader header).withHeader vectorHeader).storingResult

/-- The rules of the bare processor. -/
def baseBook : RuleBook :=
  .ofRules
    [(⟨.specific, .readTimeStamp⟩,
      [write (.exact .uint64 [])
        ((Template.pattern readTimeStamp).withHeader "stdint.h").storingResult])]

def sseHeader : String := "xmmintrin.h"

/-- Arithmetic of SSE on a scalar, on a single lane and on a whole register. -/
def sseArithmetic (scalar whole : String) : List Rule :=
  [single sseHeader scalar 2,
    packed .m128v1float32 sseHeader scalar 2,
    packed .m128v4float32 sseHeader whole 2]

def sseBook : RuleBook :=
  .ofRules
    [(Operation.addition, sseArithmetic "_mm_add_ss" "_mm_add_ps"),
      (Operation.subtraction, sseArithmetic "_mm_sub_ss" "_mm_sub_ps"),
      (Operation.multiplication, sseArithmetic "_mm_mul_ss" "_mm_mul_ps"),
      (Operation.minimum, [single sseHeader "_mm_min_ss" 2]),
      (Operation.maximum, [single sseHeader "_mm_max_ss" 2]),
      (Operation.fastReciprocal, [single sseHeader "_mm_rcp_ss" 1]),
      (Operation.conversion,
        [converting (.register .m128v1float32) .binary32 sseHeader "_mm_set_ss",
          converting .binary32 (.register .m128v1float32) sseHeader "_mm_cvtss_f32",
          loading .m128v4float32 (.vector .binary32 4) sseHeader
            "_mm_load_ps(GET_VEC_FIELD_ADDR({0}))",
          storing .m128v4float32 (.vector .binary32 4) sseHeader
            "_mm_store_ps(GET_VEC_FIELD_ADDR({r}), {0});"]),
      (Operation.nearestInteger,
        [write (.exact .int32 [.binary32])
          ((Template.pattern "_mm_cvt_ss2si(_mm_set_ss({0}))").withHeader sseHeader)])]

def sse2Header : String := "emmintrin.h"

/-- Arithmetic of SSE2 on a scalar, on a single lane and on a whole register. -/
def sse2Arithmetic (scalar whole : String) : List Rule :=
  [double sse2Header scalar 2,
    packed .m128v1float64 sse2Header scalar 2,
    packed .m128v2float64 sse2Header whole 2]

def sse2Book : RuleBook :=
  .ofRules
    [(Operation.addition,
        sse2Arithmetic "_mm_add_sd" "_mm_add_pd" ++
          [packed .m128v4int32 sse2Header "_mm_add_epi32" 2]),
      (Operation.subtraction,
        sse2Arithmetic "_mm_sub_sd" "_mm_sub_pd" ++
          [packed .m128v4int32 sse2Header "_mm_sub_epi32" 2]),
      (Operation.multiplication, sse2Arithmetic "_mm_mul_sd" "_mm_mul_pd"),
      (Operation.minimum, [double sse2Header "_mm_min_sd" 2]),
      (Operation.maximum, [double sse2Header "_mm_max_sd" 2]),
      (Operation.conversion,
        [converting (.register .m128v1float64) .binary64 sse2Header "_mm_set_sd",
          converting .binary64 (.register .m128v1float64) sse2Header "_mm_cvtsd_f64"]),
      (Operation.nearestInteger,
        [write (.exact .int32 [.binary64])
          ((Template.pattern "_mm_cvtsd_si32(_mm_set_sd({0}))").withHeader sse2Header)])]

def ssse3Header : String := "tmmintrin.h"

def ssse3Book : RuleBook :=
  .ofRules
    [(Operation.negation,
        [write (.uniform (.register .m128v4int32) 1)
          ((Template.pattern "_mm_sign_epi32({0}, _mm_set1_epi32(-1))").withHeader
            ssse3Header)]),
      (Operation.absolute, [packed .m128v4int32 ssse3Header "_mm_abs_epi32" 1])]

def sse41Header : String := "smmintrin.h"

/-- Rounds a scalar to an integer of its own format. -/
def rounding (format : Format) (lane : Lane) (instruction : String) : Rule :=
  write (.uniform format 1)
    ((Template.pattern
      (lane.get ++ "(" ++ instruction ++ "(" ++ lane.set ++ "({0}), " ++ lane.set ++
        "({0}), _MM_FROUND_TO_NEAREST_INT))")).withHeader sse41Header)

def sse41Book : RuleBook :=
  .ofRules
    [(Operation.nearestInteger,
        [rounding .binary32 singleLane "_mm_round_ss",
          rounding .binary64 doubleLane "_mm_round_sd"]),
      (Operation.multiplication, [packed .m128v4int32 sse41Header "_mm_mullo_epi32" 2])]

/-- The header of AVX and what follows it. -/
def avxHeader : String := "immintrin.h"

/-- Arithmetic of AVX in single and in double precision. -/
def avxArithmetic (single double : String) : List Rule :=
  [packed .m256v8float32 avxHeader single 2, packed .m256v4float64 avxHeader double 2]

/-- Loads and stores of one register layout of AVX. -/
def avxMemory (layout : Register) (vector : Format) (load store : String) : List Rule :=
  [loading layout vector avxHeader load, storing layout vector avxHeader store]

def avxBook : RuleBook :=
  .ofRules
    [(Operation.addition, avxArithmetic "_mm256_add_ps" "_mm256_add_pd"),
      (Operation.subtraction, avxArithmetic "_mm256_sub_ps" "_mm256_sub_pd"),
      (Operation.multiplication, avxArithmetic "_mm256_mul_ps" "_mm256_mul_pd"),
      (Operation.conversion,
        avxMemory .m256v8float32 (.vector .binary32 8)
          "_mm256_load_ps(GET_VEC_FIELD_ADDR({0}))"
          "_mm256_store_ps(GET_VEC_FIELD_ADDR({r}), {0});" ++
        avxMemory .m256v4float64 (.vector .binary64 4)
          "_mm256_load_pd(GET_VEC_FIELD_ADDR({0}))"
          "_mm256_store_pd(GET_VEC_FIELD_ADDR({r}), {0});" ++
        avxMemory .m256v8int32 (.vector .int32 8)
          "_mm256_load_si256((__m256i const *) GET_VEC_FIELD_ADDR({0}))"
          "_mm256_store_si256((__m256i *) GET_VEC_FIELD_ADDR({r}), {0});")]

/-- The registers that hold vectors of 256 bits. -/
def avxPromotions : Promotions :=
  ⟨[(.vector .binary64 4, .register .m256v4float64),
    (.vector .binary32 8, .register .m256v8float32),
    (.vector .int32 8, .register .m256v8int32)]⟩

def avx2Book : RuleBook :=
  .ofRules
    [(Operation.fusedMultiplyAdd,
        [single avxHeader "_mm_fmadd_ss" 3,
          double avxHeader "_mm_fmadd_sd" 3,
          packed .m256v8float32 avxHeader "_mm256_fmadd_ps" 3,
          packed .m256v4float64 avxHeader "_mm256_fmadd_pd" 3]),
      (Operation.addition, [packed .m256v8int32 avxHeader "_mm256_add_epi32" 2]),
      (Operation.multiplication, [packed .m256v8int32 avxHeader "_mm256_mullo_epi32" 2])]

/-- The bare processor. -/
def base : Target :=
  TargetPlan.target
    { name := "x86"
      description := "x86 without SIMD extensions"
      parent := Portable.target
      books := [(.c, baseBook)] }

def sse : Target :=
  TargetPlan.target
    { name := "x86_sse"
      description := "x86 with SSE"
      parent := base
      flags := ["-msse"]
      books := [(.c, sseBook)] }

def sse2 : Target :=
  TargetPlan.target
    { name := "x86_sse2"
      description := "x86 with SSE2"
      parent := sse
      flags := ["-msse2"]
      books := [(.c, sse2Book)] }

/-- The processor with SSE3, which adds no rules. -/
def sse3 : Target :=
  TargetPlan.target
    { name := "x86_sse3"
      description := "x86 with SSE3"
      parent := sse2
      flags := ["-msse3"] }

/-- The processor with SSSE3, beside the one with SSE3. -/
def ssse3 : Target :=
  TargetPlan.target
    { name := "x86_ssse3"
      description := "x86 with SSSE3"
      parent := sse2
      flags := ["-mssse3"]
      books := [(.c, ssse3Book)] }

def sse41 : Target :=
  TargetPlan.target
    { name := "x86_sse41"
      description := "x86 with SSE4.1"
      parent := ssse3
      flags := ["-msse4.1"]
      books := [(.c, sse41Book)] }

def avx : Target :=
  TargetPlan.target
    { name := "x86_avx"
      description := "x86 with AVX"
      parent := sse41
      flags := ["-mavx"]
      books := [(.c, avxBook)]
      promotions := avxPromotions }

def avx2 : Target :=
  TargetPlan.target
    { name := "x86_avx2"
      description := "x86 with AVX2 and FMA"
      parent := avx
      flags := ["-mfma", "-mavx2"]
      books := [(.c, avx2Book)] }

/-- The whole family, each level before those that extend it. -/
def family : List Target := [base, sse, sse2, sse3, ssse3, sse41, avx, avx2]

end Retarget.Intrinsics
