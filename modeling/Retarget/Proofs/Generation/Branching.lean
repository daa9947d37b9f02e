import Retarget.Proofs.Generation.Transcript

/-!
# Conditionals as blocks

A branch of a conditional is written as its transcript is printed where its statements are. In C
each branch is a scope in braces, with what it declares at its head. In hardware each branch is
indented, and a conditional outside of all others stands in a process.
-/

namespace Retarget.Generator

/-- Statements can be written: a function is under generation, in the language of the job, and the
graph has grown from the one that the statements were found in. -/
structure Writable (job : Job) (base : Graph) (frame : Frame) (generator : Generator) : Prop where
  grows : base.Grows generator.graph
  framed : generator.frame = some frame
  language : generator.document.language = job.options.language
  current : generator.document.current.language = job.options.language

/-- The lowering of one of some values failed by a fault and left a state. -/
def Blames (job : Job) (values : List NodeId) (fault : Fault) (after : Generator) : Prop :=
  ∃ value ∈ values, ∃ state, lowerExpression job value state = .error fault after

/-- An action is recorded faithfully: both fail together, for the fault of a value, or succeed
together, and then a text is written that the record shows. -/
def Renders {α : Type} (job : Job) (base : Graph) (frame : Frame) (values : List NodeId)
    (shows : Nat → α → String → Prop) (recorded : GeneratorM α) (action : GeneratorM Unit) : Prop :=
  ∀ before, before.Writable job base frame →
    Alike (Blames job values)
      (fun value _ after =>
        ∃ text, shows before.conditionals value text ∧ before.Wrote after text ∧ WholeLines text)
      (recorded before) (action before)

/-- What passages are printed as, inside of a number of conditionals. -/
def Printed (job : Job) (frame : Frame) (conditionals : Nat) (passages : List Passage)
    (text : String) : Prop :=
  text = Passage.print job.options.language frame.resultName (conditionals ≠ 0) passages

variable {job : Job} {base : Graph} {frame : Frame} {values : List NodeId}
  {before middle after outer inner : Generator} {text front : String}

theorem Writable.of_wrote (writable : before.Writable job base frame)
    (wrote : before.Wrote after text) : after.Writable job base frame where
  grows := writable.grows.trans wrote.graph
  framed := wrote.frame.trans writable.framed
  language := wrote.document.language.trans writable.language
  current := (congrArg Sheet.language wrote.document.current).trans writable.current

section

variable {α : Type} {shows : Nat → α → String → Prop} {recorded : GeneratorM α}
  {action : GeneratorM Unit} (renders : Renders job base frame values shows recorded action)

include renders

theorem Renders.of_subset {larger : List NodeId} (subset : values ⊆ larger) :
    Renders job base frame larger shows recorded action :=
  fun before writable => (renders before writable).mono
    (fun _ _ ⟨value, member, failed⟩ => ⟨value, subset member, failed⟩) fun _ _ _ => id

theorem Renders.mono {weaker : Nat → α → String → Prop}
    (implies : ∀ conditionals value text,
      shows conditionals value text → weaker conditionals value text) :
    Renders job base frame values weaker recorded action := by
  intro before writable
  refine (renders before writable).mono (fun _ _ => id) ?_
  rintro value _ after ⟨text, shown, wrote⟩
  exact ⟨text, implies _ _ _ shown, wrote⟩

end

/-! ## Conditionals in C -/

/-- A scope has begun in the innermost draft, behind a text that opens its block. -/
structure Entered (outer : Generator) (front : String) (inner : Generator) : Prop where
  graph : outer.graph.Grows inner.graph
  document : outer.document.Inside front inner.document
  outerMemos : inner.outerMemos = outer.levels
  conditionals : inner.conditionals = outer.conditionals
  frame : inner.frame = outer.frame

theorem Entered.writable (inside : outer.Entered front inner)
    (writable : outer.Writable job base frame) (language : job.options.language = .c) :
    inner.Writable job base frame where
  grows := writable.grows.trans inside.graph
  framed := inside.frame.trans writable.framed
  language := inside.document.language.trans writable.language
  current := (congrArg Sheet.language inside.document.current).trans language.symm

theorem openScope_entered (writable : outer.Writable job base frame)
    (language : job.options.language = .c) :
    ∃ inner, openScope outer = .ok () inner ∧ outer.Entered "\x7b\n" inner :=
  ⟨_, rfl, .refl _, Document.openScope_inside (writable.language.trans language)
    (writable.current.trans language), rfl, rfl, rfl⟩

theorem onDocument_of_eq_ok {α : Type} {action : DocumentM α} {value : α} {document : Document}
    (done : action before.document = .ok value document) :
    onDocument action before = .ok value { before with document } := by
  unfold onDocument
  rw [done]

theorem popMemo_of_outerMemos {memo : Memo} {memos : List Memo}
    (pushed : after.outerMemos = memo :: memos) :
    popMemo after = .ok () { after with memo, outerMemos := memos } := by
  rw [popMemo, modify_eq_ok, pushed]

section Scope

variable (inside : outer.Entered front inner) (wrote : inner.Wrote after text)
  (whole : WholeLines text) (writable : outer.Writable job base frame)
  (language : job.options.language = .c)

include inside wrote whole writable language

theorem Entered.closeScope :
    ∃ closed, Generator.closeScope after = .ok () closed ∧
      outer.Wrote closed (front ++ (onLines 1 (after.document.heading ++ text) ++ "\x7d\n")) := by
  obtain ⟨document, closed, written⟩ := inside.document.closeScope wrote.document whole
    (writable.current.trans language)
  have popped := popMemo_of_outerMemos (wrote.outerMemos.trans inside.outerMemos)
  refine ⟨{ after with memo := outer.memo, outerMemos := outer.outerMemos, document }, ?_,
    inside.graph.trans wrote.graph, written, rfl, wrote.conditionals.trans inside.conditionals,
    wrote.frame.trans inside.frame⟩
  exact (bind_of_eq_ok popped).trans (onDocument_of_eq_ok closed)

theorem Entered.linkScope (transition : String) :
    ∃ linked, Generator.linkScope transition after = .ok () linked ∧
      outer.Entered (front ++ (onLines 1 (after.document.heading ++ text) ++
        ("\x7d " ++ transition ++ " \x7b\n"))) linked := by
  obtain ⟨document, linked, written⟩ := inside.document.linkScope wrote.document whole
    (writable.current.trans language) (writable.language.trans language) transition
  have popped := popMemo_of_outerMemos (wrote.outerMemos.trans inside.outerMemos)
  refine ⟨{ after with
      memo := OrderedMap.empty
      outerMemos := outer.levels
      session := after.session.opened
      document }, ?_,
    inside.graph.trans wrote.graph, written, rfl, wrote.conditionals.trans inside.conditionals,
    wrote.frame.trans inside.frame⟩
  have entered : onDocument (Document.linkScope transition)
      { after with memo := outer.memo, outerMemos := outer.outerMemos } =
        .ok () { after with memo := outer.memo, outerMemos := outer.outerMemos, document } :=
    onDocument_of_eq_ok linked
  exact (bind_of_eq_ok popped).trans (bind_of_eq_ok entered)

end Scope

section Branches

/-- The text of a conditional in C in the order in which it is written. -/
theorem guardedC_eq (condition head : String) (body : List Passage) :
    Passage.printC (.guarded condition head body) =
      "if (" ++ condition ++ ") " ++
        ("\x7b\n" ++ (onLines 1 (head ++ Passage.printAllC body) ++ "\x7d\n")) := by
  rw [Passage.printC, show (") \x7b\n" : String) = ") " ++ "\x7b\n" from rfl]
  simp only [String.append_assoc]

theorem choiceC_eq (condition head otherHead : String) (body rest : List Passage) :
    Passage.printC (.choice condition head body otherHead rest) =
      "if (" ++ condition ++ ") " ++
        ("\x7b\n" ++ (onLines 1 (head ++ Passage.printAllC body) ++
          ("\x7d " ++ "else" ++ " \x7b\n")) ++
          (onLines 1 (otherHead ++ Passage.printAllC rest) ++ "\x7d\n")) := by
  rw [Passage.printC, show (") \x7b\n" : String) = ") " ++ "\x7b\n" from rfl,
    show ("\x7d else \x7b\n" : String) = "\x7d " ++ "else" ++ " \x7b\n" from rfl]
  simp only [String.append_assoc]

theorem printed_c (language : job.options.language = .c) {conditionals : Nat}
    {passages : List Passage} (printed : Printed job frame conditionals passages text) :
    text = Passage.printAllC passages := by
  rw [Printed, language] at printed
  exact printed

theorem printed_one_c (language : job.options.language = .c) (conditionals : Nat)
    (passage : Passage) : Printed job frame conditionals [passage] passage.printC := by
  rw [Printed, language, Passage.print_c]

variable {lower : NodeId → GeneratorM Unit} {yes : NodeId} {no? : Option NodeId}
  {recorded : GeneratorM (List Passage)} {other? : Option (GeneratorM (List Passage))}
  (first : Renders job base frame values (Printed job frame) recorded (lower yes))
  (second : Option.Rel (fun other no =>
    Renders job base frame values (Printed job frame) other (lower no)) other? no?)

include first second

theorem conditionC_renders (language : job.options.language = .c) (condition : String) :
    Renders job base frame values
      (fun conditionals passage => Printed job frame conditionals [passage])
      (transcribeC condition recorded other?) (lowerConditionC lower condition yes no?) := by
  intro before writable
  unfold transcribeC lowerConditionC
  obtain ⟨header, done, wrote⟩ := write_wrote before ("if (" ++ condition ++ ") ")
  refine .after_ok done ?_
  have ready := writable.of_wrote wrote
  obtain ⟨inner, opened, inside⟩ := openScope_entered ready language
  refine .after_ok opened ?_
  refine (first inner (inside.writable ready language)).bind ?_
  rintro body _ after ⟨text, printed, written, whole⟩
  cases printed_c language printed
  -- The first branch reaches the draft around it where its scope closes or is linked to the second.
  cases second with
  | none =>
    obtain ⟨closed, done, block⟩ := inside.closeScope written whole ready language
    change Alike _ _
      ((do closeScope; return .guarded condition after.document.heading body :
        GeneratorM Passage) after) (closeScope after)
    refine .of_eq_ok (bind_of_eq_ok done) done
      ⟨_, printed_one_c language .., ?_, .append_line _ (by decide)⟩
    rw [guardedC_eq]
    exact wrote.trans block
  | some second =>
    obtain ⟨linked, entered, beside⟩ := inside.linkScope written whole ready language "else"
    rw [lowerElseC, bind_assoc]
    change Alike _ _ ((do
        linkScope "else"
        let rest ← _
        let otherHead := (← get).document.heading
        closeScope
        return .choice condition after.document.heading body otherHead rest :
          GeneratorM Passage) after)
      ((do linkScope "else"; lower _; closeScope : GeneratorM Unit) after)
    refine .after_ok entered ?_
    refine (second linked (beside.writable ready language)).bind ?_
    rintro rest _ later ⟨text, printed', written', whole'⟩
    cases printed_c language printed'
    obtain ⟨closed, done, block⟩ := beside.closeScope written' whole' ready language
    change Alike _ _
      ((do
        closeScope
        return .choice condition after.document.heading body later.document.heading rest :
          GeneratorM Passage) later) (closeScope later)
    refine .of_eq_ok (bind_of_eq_ok done) done
      ⟨_, printed_one_c language .., ?_, .append_line _ (by decide)⟩
    rw [choiceC_eq]
    exact wrote.trans block

end Branches

/-! ## Conditionals in hardware -/

section

variable {α : Type} {shows : Nat → α → String → Prop} {recorded : GeneratorM α}
  {action : GeneratorM Unit} (renders : Renders job base frame values shows recorded action)

include renders

theorem Renders.indented :
    Renders job base frame values
      (fun conditionals value text =>
        ∃ inner, text = onLines 1 inner ∧ shows conditionals value inner)
      (Generator.indented recorded) (Generator.indented action) := by
  intro before writable
  have ready : Writable job base frame
      { before with document := before.document.modifyCurrent Draft.indent } :=
    ⟨writable.grows, writable.framed, writable.language, writable.current⟩
  refine .after_ok (show onDocument Document.indent before = .ok () _ from rfl) ?_
  refine (renders _ ready).bind ?_
  rintro value _ after ⟨text, shown, wrote, whole⟩
  obtain ⟨back, stepped, written⟩ := before.document.indent_deeper.dedent wrote.document whole
  refine .after_ok (onDocument_of_eq_ok stepped) ?_
  exact .ok ⟨_, ⟨text, rfl, shown⟩,
    ⟨wrote.graph, written, wrote.outerMemos, wrote.conditionals, wrote.frame⟩, whole.onLines 1⟩

theorem Renders.forgetting :
    Renders job base frame values shows
      (Generator.forgetting recorded) (Generator.forgetting action) := by
  intro before writable
  have ready : Writable job base frame
      { before with memo := OrderedMap.empty, outerMemos := before.levels } :=
    ⟨writable.grows, writable.framed, writable.language, writable.current⟩
  refine .after_ok (show pushMemo before = .ok () _ from rfl) ?_
  refine (renders _ ready).bind ?_
  rintro value _ after ⟨text, shown, wrote, whole⟩
  refine .after_ok (popMemo_of_outerMemos wrote.outerMemos) ?_
  exact .ok ⟨text, shown,
    ⟨wrote.graph, wrote.document, rfl, wrote.conditionals, wrote.frame⟩, whole⟩

theorem Renders.nested :
    Renders job base frame values (fun conditionals => shows (conditionals + 1))
      (Generator.nested recorded) (Generator.nested action) := by
  intro before writable
  have ready : Writable job base frame { before with conditionals := before.conditionals + 1 } :=
    ⟨writable.grows, writable.framed, writable.language, writable.current⟩
  refine .after_ok (show (modify _ : GeneratorM Unit) before = .ok () _ from rfl) ?_
  refine (renders _ ready).bind ?_
  rintro value _ after ⟨text, shown, wrote, whole⟩
  exact .ok ⟨text, shown, ⟨wrote.graph, wrote.document, wrote.outerMemos,
    congrArg (· - 1) wrote.conditionals, wrote.frame⟩, whole⟩

end

theorem bind_pure_of_unit (action : GeneratorM Unit) (value : Unit) :
    (do action; return value) = action :=
  bind_pure_unit

theorem lowerBranch_eq (lower : NodeId → GeneratorM Unit) (branch : NodeId) :
    lowerBranch lower branch = indented (forgetting (lower branch)) := by
  simp only [lowerBranch, indented, forgetting, bind_assoc, bind_pure_of_unit]

/-- The branches of a conditional in hardware. -/
def lowerSides (lower : NodeId → GeneratorM Unit) (condition : String) (yes : NodeId)
    (no? : Option NodeId) : GeneratorM Unit := do
  write ("if " ++ condition ++ " = '1' then\n")
  lowerBranch lower yes
  match no? with
  | none => write "end if;\n"
  | some no => do
    write "else\n"
    lowerBranch lower no
    write "end if;\n"

theorem lowerConditionVhdl_eq (lower : NodeId → GeneratorM Unit) (condition : String)
    (yes : NodeId) (no? : Option NodeId) (before : Generator) :
    lowerConditionVhdl lower condition yes no? before =
      (if before.conditionals = 0 then do
        write "process(all)\nbegin\n"
        indented (nested (lowerSides lower condition yes no?))
        write "end process;\n"
      else nested (lowerSides lower condition yes no?) : GeneratorM Unit) before := by
  refine (bind_of_eq_ok (get_eq_ok before)).trans ?_
  by_cases outermost : before.conditionals = 0 <;> cases no? <;>
    simp only [outermost, ↓reduceIte, indented, nested, lowerSides, bind_assoc, bind_pure_of_unit]

section Branches

variable {lower : NodeId → GeneratorM Unit} {yes : NodeId} {no? : Option NodeId}
  {recorded : GeneratorM (List Passage)} {other? : Option (GeneratorM (List Passage))}

theorem printed_one_vhdl (language : job.options.language = .vhdl) {conditionals : Nat}
    {passage : Passage}
    (shown : text = passage.printVhdl frame.resultName (conditionals ≠ 0)) :
    Printed job frame conditionals [passage] text := by
  rw [Printed, language, Passage.print_vhdl, shown]

theorem lowerBranch_renders (language : job.options.language = .vhdl)
    (renders : Renders job base frame values (Printed job frame) recorded (lower yes)) :
    Renders job base frame values
      (fun conditionals body text => conditionals ≠ 0 →
        text = onLines 1 (Passage.printAllVhdl frame.resultName true body))
      (indented (forgetting recorded)) (lowerBranch lower yes) := by
  rw [lowerBranch_eq]
  refine renders.forgetting.indented.mono ?_
  rintro conditionals body _ ⟨_, rfl, rfl⟩ inside
  rw [language, decide_eq_true inside]
  rfl

variable (language : job.options.language = .vhdl)
  (first : Renders job base frame values (Printed job frame) recorded (lower yes))
  (second : Option.Rel (fun other no =>
    Renders job base frame values (Printed job frame) other (lower no)) other? no?)

include language first second

/-- The branches of a conditional that is counted already. -/
theorem lowerSides_renders (condition : String) :
    Renders job base frame values
      (fun conditionals passage text => conditionals ≠ 0 →
        ∀ nested, passage.printVhdl frame.resultName nested = Passage.inProcess nested text)
      (transcribeSides condition recorded other?) (lowerSides lower condition yes no?) := by
  intro before writable
  unfold transcribeSides lowerSides
  obtain ⟨headed, done, wrote⟩ := write_wrote before ("if " ++ condition ++ " = '1' then\n")
  refine .after_ok done ?_
  refine (lowerBranch_renders language first headed (writable.of_wrote wrote)).bind ?_
  rintro body _ after ⟨text, branch, written, _⟩
  rw [wrote.conditionals] at branch
  have sofar := wrote.trans written
  cases second with
  | none =>
    obtain ⟨ended, done, last⟩ := write_wrote after "end if;\n"
    refine .of_eq_ok (bind_of_eq_ok done) done
      ⟨_, fun inside _ => ?_, sofar.trans last, .append_line _ (by decide)⟩
    rw [branch inside]
    rfl
  | some second =>
    obtain ⟨linked, done, link⟩ := write_wrote after "else\n"
    refine .after_ok done ?_
    have reached := sofar.trans link
    refine (lowerBranch_renders language second linked (writable.of_wrote reached)).bind ?_
    rintro rest _ later ⟨text', branch', written', _⟩
    rw [reached.conditionals] at branch'
    obtain ⟨ended, done, last⟩ := write_wrote later "end if;\n"
    refine .of_eq_ok (bind_of_eq_ok done) done
      ⟨_, fun inside _ => ?_, (reached.trans written').trans last,
        .append_line _ (by decide)⟩
    rw [branch inside, branch' inside]
    rfl

theorem conditionVhdl_renders (condition : String) :
    Renders job base frame values
      (fun conditionals passage => Printed job frame conditionals [passage])
      (transcribeVhdl condition recorded other?)
      (lowerConditionVhdl lower condition yes no?) := by
  have sides := (lowerSides_renders language first second condition).nested
  intro before writable
  rw [lowerConditionVhdl_eq]
  change Alike _ _ ((if before.conditionals = 0 then do
      write "process(all)\nbegin\n"
      let passage ← indented (nested (transcribeSides condition recorded other?))
      write "end process;\n"
      return passage
    else nested (transcribeSides condition recorded other?) : GeneratorM Passage) before) _
  by_cases outermost : before.conditionals = 0
  · rw [if_pos outermost, if_pos outermost]
    obtain ⟨header, done, wrote⟩ := write_wrote before "process(all)\nbegin\n"
    refine .after_ok done ?_
    refine (sides.indented header (writable.of_wrote wrote)).bind ?_
    rintro passage _ after ⟨_, ⟨inner, rfl, shown⟩, written, _⟩
    obtain ⟨ended, done, last⟩ := write_wrote after "end process;\n"
    refine .of_eq_ok (bind_of_eq_ok done) done
      ⟨_, printed_one_vhdl language ?_, (wrote.trans written).trans last,
        .append_line _ (by decide)⟩
    rw [shown (Nat.succ_ne_zero _), outermost]
    rfl
  · rw [if_neg outermost, if_neg outermost]
    refine (sides before writable).mono (fun _ _ known => known) ?_
    rintro passage _ after ⟨text, shown, wrote⟩
    refine ⟨text, printed_one_vhdl language ?_, wrote⟩
    rw [shown (Nat.succ_ne_zero _), decide_eq_true outermost]
    rfl

end Branches

end Retarget.Generator
