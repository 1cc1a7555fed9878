import Bramble.Proofs.Interpreter.Reuse
import Bramble.Proofs.Session.Lines
import Bramble.Proofs.Text.Blank
import Bramble.Session.CommandLine

/-!
# Blank lines of a dialogue

A dialogue passes over a line of which nothing is left when it is trimmed. A line of nothing but
characters that separate tokens is a program without statements, and to interpret it does nothing.
Any other blank line holds a blank that begins no token. To interpret it does nothing to the machine
either, but it fails at the first such character.

So the machine and the output do not tell whether blank lines are passed over
(`Session.answers_enter`). The error output does: a dialogue that interprets every line makes a
report for each blank line of the second kind, and this is the only difference
(`blank_lines_passed_over`).
-/

set_option autoImplicit false

namespace Bramble

open Interpreter (Request)

/-! ## Blank texts -/

/-- The failure of a text at a character that begins no token, with what stands before it. -/
def Failure.unrecognized (before : List Char) (c : Char) : Failure :=
  .lexical ⟨"Unrecognized character `" ++ String.singleton c ++ "`",
    ⟨Text.byteLength before, Text.byteLength before + c.utf8Size⟩⟩

namespace Program

theorem ofText_spaces {text : String} (spaces : ∀ c ∈ text.toList, Token.IsSpace c) :
    ofText text = .ok [] := by
  have all : ∀ c ∈ text.toList, Token.isSpace c = true :=
    fun c member => Token.isSpace_iff.mpr (spaces c member)
  have scanned := Token.scanFrom_spaces 0 all []
  rw [List.append_nil, Token.scanFrom_nil] at scanned
  exact ofText_of_end scanned

theorem ofText_unrecognized {text : String} {before after : List Char} {c : Char}
    (parts : text.toList = before ++ c :: after) (spaces : ∀ d ∈ before, Token.IsSpace d)
    (opening : Token.Opening.of c = .nothing) :
    ofText text = .error (.unrecognized before c) := by
  have all : ∀ d ∈ before, Token.isSpace d = true :=
    fun d member => Token.isSpace_iff.mpr (spaces d member)
  have plain : c ≠ '"' := by
    rintro rfl
    revert opening
    decide
  have cut : Token.Cut (some .unknown) [c] after :=
    .unknown (Token.unmatched_nothing opening after) plain
  have scanned : Token.scan text
      = ⟨.unknown, String.singleton c,
          ⟨Text.byteLength before, Text.byteLength before + c.utf8Size⟩⟩
        :: Token.scanFrom (Text.byteLength before + c.utf8Size) after := by
    rw [Token.scan, parts, Token.scanFrom_spaces 0 all, Nat.zero_add, String.singleton_eq_ofList]
    exact Token.scanFrom_cut cut (Text.byteLength before)
  rw [ofText, scanned]
  rfl

end Program

/-! ## Blank lines -/

/-- A line that a dialogue passes over. -/
def IsBlankLine (line : String) : Prop := Text.trim line.toList = []

/-- A line of nothing but characters that separate tokens. -/
def IsSpaceLine (line : String) : Prop := ∀ c ∈ line.toList, Token.IsSpace c

instance : DecidablePred IsBlankLine := fun _ => inferInstanceAs (Decidable (_ = []))

instance : DecidablePred IsSpaceLine := fun line => List.decidableBAll _ line.toList

theorem all_isBlank_iff {line : String} :
    line.toList.all Text.isBlank = true ↔ IsBlankLine line := by
  rw [List.all_eq_true, IsBlankLine, Text.trim_eq_nil_iff]

section Interpreting

variable {line : String} (limit stack : Nat) (scope : Scope) (m : Machine) (i : Interpreter)

theorem interpret_spaces (spaces : IsSpaceLine line) :
    interpret limit scope line m = .ok .void m ∧
      (Request.text scope line).serve stack i m = some (.ok .void, i, m) := by
  rw [interpret, Request.serve, Program.ofText_spaces spaces]
  exact ⟨rfl, rfl⟩

theorem interpret_unrecognized {before after : List Char} {c : Char}
    (parts : line.toList = before ++ c :: after) (spaces : ∀ d ∈ before, Token.IsSpace d)
    (opening : Token.Opening.of c = .nothing) :
    interpret limit scope line m = .error (.unrecognized before c) m ∧
      (Request.text scope line).serve stack i m = some (.error (.unrecognized before c), i, m) := by
  rw [interpret, Request.serve, Program.ofText_unrecognized parts spaces opening]
  exact ⟨rfl, rfl⟩

end Interpreting

/-! ## Reports that are not made -/

/-- The failure of a blank line that is more than separators. -/
def refusal? (line : String) : Option Failure :=
  if line.toList.all Text.isBlank then
    (line.toList.dropWhile Token.isSpace).head?.map
      (.unrecognized (line.toList.takeWhile Token.isSpace))
  else none

/-- The report of this failure, which is not made if the line is passed over. -/
def unreported (line : String) : String := ((refusal? line).map (·.report line)).getD ""

section Refusals

variable {line : String}

theorem refusal?_of_not_blank (other : ¬ IsBlankLine line) : refusal? line = none :=
  if_neg (mt all_isBlank_iff.mp other)

theorem refusal?_of_spaces (spaces : IsSpaceLine line) : refusal? line = none := by
  have all : ∀ c ∈ line.toList, Token.isSpace c = true :=
    fun c member => Token.isSpace_iff.mpr (spaces c member)
  rw [refusal?, List.dropWhile_eq_nil_iff.mpr all]
  exact ite_self none

/-- A blank line is all separators, or it has a first character that is none. -/
theorem IsBlankLine.cases (blank : IsBlankLine line) :
    IsSpaceLine line ∨ ∃ before c after, line.toList = before ++ c :: after ∧
      (∀ d ∈ before, Token.IsSpace d) ∧ ¬ Token.IsSpace c ∧ Token.Opening.of c = .nothing ∧
      refusal? line = some (.unrecognized before c) := by
  cases rest : line.toList.dropWhile Token.isSpace with
  | nil =>
      exact .inl fun c member => Token.isSpace_iff.mp (List.dropWhile_eq_nil_iff.mp rest c member)
  | cons c after =>
      have parts := List.takeWhile_append_dropWhile (p := Token.isSpace) (l := line.toList)
      rw [rest] at parts
      have wide : ¬ Token.IsSpace c := by
        rw [← Token.isSpace_iff, Bool.not_eq_true]
        exact Text.stops_dropWhile (congrArg List.head? rest)
      have member : c ∈ line.toList := parts ▸ List.mem_append_right _ List.mem_cons_self
      have other : c.toNat ∈ Text.otherBlanks :=
        (Text.isBlank_iff.mp (Text.trim_eq_nil_iff.mp blank c member)).resolve_left wide
      refine .inr ⟨_, c, after, parts.symm, fun d front => ?_, wide,
        Text.opening_of_otherBlank other, ?_⟩
      · exact Token.isSpace_iff.mp (List.mem_takeWhile_imp front)
      · rw [refusal?, if_pos (all_isBlank_iff.mpr blank), rest]
        rfl

theorem refusal?_eq_none_iff : refusal? line = none ↔ (IsBlankLine line → IsSpaceLine line) := by
  refine ⟨fun none blank => ?_, fun spaces => ?_⟩
  · rcases blank.cases with spaces | ⟨_, _, _, _, _, _, _, some⟩
    · exact spaces
    · cases none.symm.trans some
  · by_cases blank : IsBlankLine line
    · exact refusal?_of_spaces (spaces blank)
    · exact refusal?_of_not_blank blank

theorem Failure.report_ne_empty (failure : Failure) (text : String) : failure.report text ≠ "" := by
  rw [report, errorLine.eq_def]
  split <;> simp

theorem unreported_of_none (none : refusal? line = none) : unreported line = "" := by
  rw [unreported, none]
  rfl

theorem unreported_eq_empty_iff : unreported line = "" ↔ refusal? line = none := by
  refine ⟨fun empty => ?_, unreported_of_none⟩
  cases found : refusal? line with
  | none => rfl
  | some failure =>
      rw [unreported, found] at empty
      exact absurd empty (failure.report_ne_empty line)

end Refusals

/-- The reply to a line that is interpreted in any case, from the reply of a dialogue that passes
over blank lines. -/
def Reply.unskipped (line : String) (reply : Reply) : Reply :=
  { reply with
    err := unreported line ++ reply.err
    failed := reply.failed || (refusal? line).isSome }

theorem Reply.unskipped_of_none {line : String} (none : refusal? line = none) (reply : Reply) :
    reply.unskipped line = reply := by
  simp [unskipped, unreported_of_none none, none]

/-! ## Sessions with and without blank lines -/

namespace Session

/-- A session without what was printed in it before, which has been written already. -/
def cleared (session : Session) : Session :=
  { session with machine := { session.machine with output := "" } }

/-- The replies to lines, each of which is answered by `answer`, and the session after them. -/
def answers (answer : Session → String → Reply × Session) (session : Session) :
    List String → List Reply × Session
  | [] => ([], session)
  | line :: lines =>
      let (reply, session) := answer session line
      let (replies, session) := answers answer session lines
      (reply :: replies, session)

theorem length_answers (answer : Session → String → Reply × Session) (session : Session)
    (lines : List String) : (session.answers answer lines).1.length = lines.length := by
  induction lines generalizing session with
  | nil => rfl
  | cons line lines ih => exact congrArg Nat.succ (ih _)

theorem enter_eq_of_cleared {session session' : Session} (same : session.cleared = session'.cleared)
    (line : String) : session.enter line = session'.enter line := by
  have forgets : ∀ session : Session, session.cleared.enter line = session.enter line :=
    fun _ => rfl
  rw [← forgets session, same, forgets]

/-- Interpreting a blank line leaves the session as it is and makes a report at most. -/
theorem enter_blank {line : String} (blank : IsBlankLine line) (session : Session) :
    session.enter line = (Reply.unskipped line {}, session.cleared) := by
  rcases blank.cases with spaces | ⟨before, c, after, parts, spaces, _, opening, refused⟩
  · have void := (interpret_spaces session.limit 0 session.scope
      { session.machine with output := "" } (.new 0) spaces).1
    rw [enter, void, Reply.unskipped_of_none (refusal?_of_spaces spaces)]
    rfl
  · have failed := (interpret_unrecognized session.limit 0 session.scope
      { session.machine with output := "" } (.new 0) parts spaces opening).1
    rw [enter, failed, Reply.unskipped, unreported, refused]
    simp only [String.append_empty]
    rfl

/-- What passing over blank lines changes about one line. -/
theorem enter_eq (session : Session) (line : String) :
    (session.enter line).1 = (session.enterLine line).1.unskipped line ∧
      (session.enter line).2.cleared = (session.enterLine line).2.cleared := by
  by_cases blank : IsBlankLine line
  · rw [enter_blank blank, enterLine, if_pos (all_isBlank_iff.mpr blank)]
    exact ⟨rfl, rfl⟩
  · rw [enterLine, if_neg (mt all_isBlank_iff.mp blank),
      Reply.unskipped_of_none (refusal?_of_not_blank blank)]
    exact ⟨rfl, rfl⟩

/-- What it changes about any number of lines. -/
theorem answers_enter {session session' : Session} (same : session.cleared = session'.cleared)
    (lines : List String) :
    (session.answers enter lines).1
        = List.zipWith Reply.unskipped lines (session'.answers enterLine lines).1 ∧
      (session.answers enter lines).2.cleared = (session'.answers enterLine lines).2.cleared := by
  induction lines generalizing session session' with
  | nil => exact ⟨rfl, same⟩
  | cons line lines ih =>
      obtain ⟨reply, next⟩ := session'.enter_eq line
      rw [← enter_eq_of_cleared same] at reply next
      obtain ⟨replies, last⟩ := ih next
      refine ⟨?_, last⟩
      simp only [answers]
      rw [List.zipWith_cons_cons, reply, replies]

end Session

/-! ## Transcripts -/

namespace Transcript

/-- A dialogue in which the lines got the given replies. -/
def ofReplies : List Reply → Transcript
  | [] => { out := prompt ++ "\n" }
  | reply :: replies =>
      let rest := ofReplies replies
      { out := prompt ++ reply.out ++ rest.out, err := reply.err ++ rest.err, exit := rest.exit }

theorem ofLines_eq (session : Session) (lines : List String) :
    ofLines session lines = ofReplies (session.answers Session.enterLine lines).1 := by
  induction lines generalizing session with
  | nil => rfl
  | cons line lines ih =>
      simp only [ofLines, Session.answers, ofReplies]
      rw [ih]

variable {lines : List String} {replies : List Reply}

/-- The error output is longer by the reports that were not made. -/
theorem ofReplies_unskipped (enough : replies.length = lines.length) :
    let all := ofReplies (List.zipWith Reply.unskipped lines replies)
    all.out = (ofReplies replies).out ∧ all.exit = (ofReplies replies).exit ∧
      all.err.length = (ofReplies replies).err.length
        + (lines.map fun line => (unreported line).length).sum := by
  induction lines generalizing replies with
  | nil =>
      rw [List.length_eq_zero_iff.mp enough]
      exact ⟨rfl, rfl, rfl⟩
  | cons line lines ih =>
      obtain ⟨reply, replies, rfl⟩ := List.exists_cons_of_length_eq_add_one enough
      obtain ⟨out, exit, err⟩ := ih (Nat.succ.inj enough)
      simp only [List.zipWith_cons_cons, ofReplies, Reply.unskipped, List.map_cons, List.sum_cons,
        String.length_append]
      rw [out, exit, err]
      exact ⟨rfl, rfl, by omega⟩

theorem zipWith_unskipped (enough : replies.length = lines.length)
    (none : ∀ line ∈ lines, refusal? line = none) :
    List.zipWith Reply.unskipped lines replies = replies := by
  induction lines generalizing replies with
  | nil => exact (List.length_eq_zero_iff.mp enough).symm
  | cons line lines ih =>
      obtain ⟨reply, replies, rfl⟩ := List.exists_cons_of_length_eq_add_one enough
      obtain ⟨first, others⟩ := List.forall_mem_cons.mp none
      rw [List.zipWith_cons_cons, Reply.unskipped_of_none first, ih (Nat.succ.inj enough) others]

theorem err_unskipped_iff (enough : replies.length = lines.length) :
    (ofReplies (List.zipWith Reply.unskipped lines replies)).err = (ofReplies replies).err
      ↔ ∀ line ∈ lines, refusal? line = none := by
  constructor
  · intro same line member
    obtain ⟨_, _, length⟩ := ofReplies_unskipped enough
    rw [same] at length
    have zero : (lines.map fun line => (unreported line).length).sum = 0 := by omega
    have each := List.sum_eq_zero_iff_forall_eq_nat.mp zero _ (List.mem_map_of_mem member)
    exact unreported_eq_empty_iff.mp (String.length_eq_zero_iff.mp each)
  · intro none
    rw [zipWith_unskipped enough none]

end Transcript

/-- What passing over blank lines changes. Blank are the characters that separate tokens and twenty
others. A blank line of separators has no value and does nothing when it is interpreted, in every
scope, on every machine and by every interpreter. Any other blank line does nothing either, but it
fails at its first character that is no separator. So the sessions are the same whether blank lines
are passed over or not, and the replies differ by the reports of these failures alone. The output
is the same, and the error output is the same if and only if all blank lines are lines of
separators. -/
theorem blank_lines_passed_over :
    (∀ c : Char, Text.isBlank c = true ↔ Token.IsSpace c ∨ c.toNat ∈ Text.otherBlanks) ∧
    (∀ line : String, IsBlankLine line →
      ∀ (limit stack : Nat) (scope : Scope) (m : Machine) (i : Interpreter),
      (IsSpaceLine line →
        interpret limit scope line m = .ok .void m ∧
        (Request.text scope line).serve stack i m = some (.ok .void, i, m)) ∧
      (¬ IsSpaceLine line → ∃ before c after, line.toList = before ++ c :: after ∧
        (∀ d ∈ before, Token.IsSpace d) ∧ ¬ Token.IsSpace c ∧
        interpret limit scope line m = .error (.unrecognized before c) m ∧
        (Request.text scope line).serve stack i m
          = some (.error (.unrecognized before c), i, m))) ∧
    (∀ (session : Session) (lines : List String),
      let passing := session.answers Session.enterLine lines
      let all := session.answers Session.enter lines
      all.2.cleared = passing.2.cleared ∧
      all.1 = List.zipWith Reply.unskipped lines passing.1 ∧
      Transcript.ofLines session lines = .ofReplies passing.1 ∧
      (Transcript.ofReplies all.1).out = (Transcript.ofLines session lines).out ∧
      (Transcript.ofReplies all.1).exit = (Transcript.ofLines session lines).exit ∧
      ((Transcript.ofReplies all.1).err = (Transcript.ofLines session lines).err
        ↔ ∀ line ∈ lines, IsBlankLine line → IsSpaceLine line)) := by
  refine ⟨fun c => Text.isBlank_iff, ?_, ?_⟩
  · intro line blank limit stack scope m i
    refine ⟨interpret_spaces limit stack scope m i, fun other => ?_⟩
    rcases blank.cases with spaces | ⟨before, c, after, parts, spaces, wide, opening, _⟩
    · exact absurd spaces other
    · have refused := interpret_unrecognized limit stack scope m i parts spaces opening
      exact ⟨before, c, after, parts, spaces, wide, refused⟩
  · intro session lines
    have unchanged : session.cleared = session.cleared := rfl
    obtain ⟨replies, last⟩ := Session.answers_enter unchanged lines
    have enough := session.length_answers Session.enterLine lines
    have shown := Transcript.ofLines_eq session lines
    obtain ⟨out, exit, _⟩ := Transcript.ofReplies_unskipped enough
    intro passing all
    refine ⟨last, replies, shown, ?_, ?_, ?_⟩
    · rw [replies, shown, out]
    · rw [replies, shown, exit]
    · rw [replies, shown, Transcript.err_unskipped_iff enough]
      exact forall₂_congr fun line _ => refusal?_eq_none_iff

/-- A line of separators and one that holds an em space. The second one is refused if it is
interpreted, and nothing of this is seen if it is passed over. -/
theorem emSpace_unreported :
    IsBlankLine "\t\r\n" ∧ IsSpaceLine "\t\r\n" ∧
    interpret 1 0 "\t\r\n" {} = .ok .void {} ∧
    IsBlankLine " \u2003\n" ∧ ¬ IsSpaceLine " \u2003\n" ∧
    (∃ before c, interpret 1 0 " \u2003\n" {} = .error (.unrecognized before c) {}) ∧
    (Transcript.ofReplies ((Session.start 1).answers Session.enter ["\t\r\n", " \u2003\n"]).1).err
      ≠ (Transcript.ofLines (Session.start 1) ["\t\r\n", " \u2003\n"]).err := by
  have blank : IsBlankLine "\t\r\n" := by decide
  have spaces : IsSpaceLine "\t\r\n" := by decide
  have wider : IsBlankLine " \u2003\n" := by decide
  have wide : ¬ IsSpaceLine " \u2003\n" := by decide
  obtain ⟨_, one, all⟩ := blank_lines_passed_over
  obtain ⟨before, c, _, _, _, _, refused, _⟩ := (one _ wider 1 0 0 {} (.new 1)).2 wide
  refine ⟨blank, spaces, ((one _ blank 1 0 0 {} (.new 1)).1 spaces).1, wider, wide,
    ⟨before, c, refused⟩, fun same => ?_⟩
  obtain ⟨_, _, _, _, _, reported⟩ := all (Session.start 1) ["\t\r\n", " \u2003\n"]
  exact wide (reported.mp same _ (by simp) wider)

/-- A line of a no-break space is passed over, but it is refused if it is interpreted. -/
theorem noBreakSpace_refused :
    IsBlankLine "\u00a0\n" ∧
    (Session.start 256).enterLine "\u00a0\n" = ({}, Session.start 256) ∧
    (∀ scope m, interpret 256 scope "\u00a0\n" m
      = .error (.lexical ⟨"Unrecognized character `\u00a0`", ⟨0, 2⟩⟩) m) ∧
    ¬ ∀ line, IsBlankLine line →
      ∀ limit scope m, interpret limit scope line m = .ok .void m := by
  have blank : IsBlankLine "\u00a0\n" := by decide
  have refused : ∀ scope m, interpret 256 scope "\u00a0\n" m
      = .error (.lexical ⟨"Unrecognized character `\u00a0`", ⟨0, 2⟩⟩) m := by
    intro scope m
    with_unfolding_all rfl
  refine ⟨blank, if_pos (all_isBlank_iff.mpr blank), refused, fun unseen => ?_⟩
  cases (unseen _ blank 256 0 {}).symm.trans (refused 0 {})

end Bramble
