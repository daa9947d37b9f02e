import Mathlib.Data.List.Forall2
import Mathlib.Tactic.Tauto
import Retarget.Proofs.Rule.Shadowing

/-!
# What subsumption means

A signature subsumes another exactly where it accepts everything that the other one accepts
(`Signature.subsumption_iff_inclusion`). One direction is what findings about rules rest on. For the
other one, each family has a typical format, which no family contains that does not include the
whole family, and no family has one format only. A place of a signature is told apart from the
others because every matcher accepts some format.
-/

namespace Retarget

namespace Format.Family

/-- A format that tells a family from all families that do not include it. -/
def typical : Family → Format
  | .any => .void
  | .float => .binary32
  | .integer => .int32
  | .fixed => .fixed true 16 16
  | .vector => .vector .binary32 4
  | .table => .table .binary32 1
  | .logic => .logic 1

/-- Another format of a family. -/
def further : Family → Format
  | .any => .bool
  | .float => .binary64
  | .integer => .int64
  | .fixed => .fixed true 8 8
  | .vector => .vector .binary64 4
  | .table => .table .binary64 1
  | .logic => .logic 2

theorem contains_typical (family : Family) : family.contains family.typical = true := by
  cases family <;> rfl

theorem contains_further (family : Family) : family.contains family.further = true := by
  cases family <;> rfl

theorem typical_ne_further (family : Family) : family.typical ≠ family.further := by
  cases family <;> decide

/-- The table of inclusions agrees with membership of typical formats. -/
theorem includes_eq_contains_typical (family other : Family) :
    family.includes other = family.contains other.typical := by
  cases family <;> cases other <;> rfl

theorem includes_iff_contains (family other : Family) :
    family.includes other = true ↔
      ∀ format, other.contains format = true → family.contains format = true := by
  constructor
  · intro wider format member
    exact contains_of_includes wider member
  · intro wider
    rw [includes_eq_contains_typical]
    exact wider other.typical other.contains_typical

/-- No format makes up a family on its own. -/
theorem exists_contains_ne (family : Family) (format : Format) :
    ∃ member, family.contains member = true ∧ format ≠ member := by
  by_cases same : format = family.typical
  · refine ⟨family.further, family.contains_further, ?_⟩
    rw [same]
    exact family.typical_ne_further
  · exact ⟨family.typical, family.contains_typical, same⟩

end Format.Family

namespace Matcher

/-- A format that a matcher accepts. -/
def sample : Matcher → Format
  | .exactly format => format
  | .anyOf family => family.typical

theorem accepts_sample (matcher : Matcher) : matcher.accepts matcher.sample = true := by
  cases matcher with
  | exactly format => exact decide_eq_true rfl
  | anyOf family => exact family.contains_typical

theorem subsumes_of_accepts {matcher other : Matcher}
    (wider : ∀ format, other.accepts format = true → matcher.accepts format = true) :
    matcher.subsumes other = true := by
  cases other with
  | exactly expected =>
    have accepted : matcher.accepts expected = true := wider expected (decide_eq_true rfl)
    cases matcher with
    | exactly format => exact accepted
    | anyOf family => exact accepted
  | anyOf narrow =>
    cases matcher with
    | exactly format =>
      -- A single format would have to be the whole family.
      obtain ⟨member, contained, apart⟩ := narrow.exists_contains_ne format
      have same : format = member := of_decide_eq_true (wider member contained)
      exact absurd same apart
    | anyOf family => exact (family.includes_iff_contains narrow).mpr wider

theorem subsumes_iff_accepts (matcher other : Matcher) :
    matcher.subsumes other = true ↔
      ∀ format, other.accepts format = true → matcher.accepts format = true :=
  ⟨fun wider _ => accepts_of_subsumes wider, subsumes_of_accepts⟩

/-- Each of a list of matchers accepts the format at its place. -/
def AcceptEach (matchers : List Matcher) (formats : List Format) : Prop :=
  List.Forall₂ (fun matcher format => matcher.accepts format = true) matchers formats

theorem acceptEach_samples (matchers : List Matcher) :
    AcceptEach matchers (matchers.map sample) := by
  induction matchers with
  | nil => exact .nil
  | cons matcher rest ih => exact .cons matcher.accepts_sample ih

/-- Lists of matchers are compared place by place: the formats at all other places can be chosen,
because every matcher accepts some format. -/
theorem forall₂_subsumes_of_acceptEach {matchers others : List Matcher}
    (wider : ∀ formats, AcceptEach others formats → AcceptEach matchers formats) :
    List.Forall₂ (fun matcher other => matcher.subsumes other = true) matchers others := by
  induction others generalizing matchers with
  | nil =>
    cases wider [] .nil
    exact .nil
  | cons other others ih =>
    cases wider _ (acceptEach_samples (other :: others)) with
    | cons _ _ =>
      apply List.Forall₂.cons
      · apply subsumes_of_accepts
        intro format accepted
        have whole := wider _ (.cons accepted (acceptEach_samples others))
        exact (List.forall₂_cons.mp whole).1
      · apply ih
        intro formats each
        have whole := wider _ (.cons other.accepts_sample each)
        exact (List.forall₂_cons.mp whole).2

end Matcher

namespace Signature

variable {signature : Signature}

theorem all_zip_iff_forall₂ {α β : Type} {test : α → β → Bool} {values : List α}
    {others : List β} :
    (values.length = others.length ∧
      ((values.zip others).all fun place => test place.1 place.2) = true) ↔
      List.Forall₂ (fun value other => test value other = true) values others := by
  rw [List.forall₂_iff_zip, List.all_eq_true]
  simp only [Prod.forall]

theorem accepts_iff {result : Format} {operands : List Format} :
    signature.accepts result operands = true ↔
      signature.result.accepts result = true ∧
        Matcher.AcceptEach signature.operands operands := by
  unfold accepts Matcher.AcceptEach
  rw [← all_zip_iff_forall₂, Bool.and_eq_true, Bool.and_eq_true, decide_eq_true_eq]
  tauto

theorem subsumes_iff {other : Signature} :
    signature.subsumes other = true ↔
      signature.result.subsumes other.result = true ∧
        List.Forall₂ (fun matcher matcher' => matcher.subsumes matcher' = true)
          signature.operands other.operands := by
  unfold subsumes
  rw [← all_zip_iff_forall₂, Bool.and_eq_true, Bool.and_eq_true, decide_eq_true_eq]
  tauto

theorem subsumes_of_accepts {other : Signature}
    (wider : ∀ result operands, other.accepts result operands = true →
      signature.accepts result operands = true) : signature.subsumes other = true := by
  simp only [accepts_iff] at wider
  rw [subsumes_iff]
  constructor
  · apply Matcher.subsumes_of_accepts
    intro result accepted
    exact (wider result _ ⟨accepted, Matcher.acceptEach_samples other.operands⟩).1
  · apply Matcher.forall₂_subsumes_of_acceptEach
    intro operands each
    exact (wider _ operands ⟨other.result.accepts_sample, each⟩).2

/-- Subsumption is inclusion of what is accepted, for single matchers and for signatures. -/
theorem subsumption_iff_inclusion :
    (∀ matcher other : Matcher, matcher.subsumes other = true ↔
      ∀ format, other.accepts format = true → matcher.accepts format = true) ∧
    ∀ signature other : Signature, signature.subsumes other = true ↔
      ∀ result operands, other.accepts result operands = true →
        signature.accepts result operands = true := by
  constructor
  · exact Matcher.subsumes_iff_accepts
  · intro signature other
    constructor
    · intro wider result operands accepted
      exact accepts_of_subsumes wider accepted
    · exact subsumes_of_accepts

end Signature

end Retarget
