import Retarget.Rule.Book

/-!
# Shadowed rules

A rule can never be chosen when an earlier rule of its group, or a rule of an earlier group
without a guard, accepts everything it accepts.
-/

namespace Retarget

/-- The findings within one group, given the signatures covered by earlier groups. -/
def RuleGroup.shadowings (key : RuleKey) (group : RuleGroup) (covered : List Signature) :
    List Shadowing :=
  go [] group.rules
where
  /-- The findings among the rest of the rules, after those with the given signatures. -/
  go (earlier : List Signature) : List Rule → List Shadowing
    | [] => []
    | rule :: rest =>
      let found :=
        match (earlier ++ covered).find? (Signature.subsumes · rule.signature) with
        | some shadow =>
          [⟨key.operation, key.specifier, group.label, rule.signature, shadow⟩]
        | none => []
      found ++ go (earlier ++ [rule.signature]) rest

namespace RuleBook

/-- The findings for the groups of one key, in order. -/
def shadowingsFrom (key : RuleKey) (covered : List Signature) : List RuleGroup → List Shadowing
  | [] => []
  | group :: rest =>
    let covered' :=
      if group.isAlways then covered ++ group.rules.map Rule.signature else covered
    group.shadowings key covered ++ shadowingsFrom key covered' rest

/-- The rules that can never be chosen, by key and then in order. -/
def shadowings (book : RuleBook) : List Shadowing :=
  book.keys.flatMap fun key => shadowingsFrom key [] (book.groupsFor key)

end RuleBook

end Retarget
