import Bramble.Proofs.Eval.WellFormed
import Bramble.Proofs.Grammar.Range
import Bramble.Proofs.Token.LongestMatch
import Bramble.Session.CommandLine

/-!
# Sessions are safe

No text that is entered in a session makes the interpreter do what it cannot do (`session_safe`).
Tokens are cut out of the text between characters; parsers stay within the tokens; functions of the
prelude are run on as many arguments as they take, however the texts before have moved them about;
and a failure that has a place has it between characters of the text, so that it can be reported
there.

The facts about scanning, parsing and evaluation are put together here. What the texts of a
session leave behind is a well-formed machine on which the scope of the session exists.
-/

set_option autoImplicit false

namespace Bramble

/-! ## Places in a text -/

/-- A span of a text: its ends are places between characters, in order. -/
structure Span.In (text : String) (span : Span) : Prop where
  ordered : span.start ≤ span.stop
  within : span.stop ≤ text.utf8ByteSize
  start : (⟨span.start⟩ : String.Pos.Raw).IsValid text
  stop : (⟨span.stop⟩ : String.Pos.Raw).IsValid text

namespace Token

variable {text before after : String} {t : Token}

theorem StandsIn.span_in (stands : t.StandsIn text before after) : t.span.In text := by
  obtain ⟨rfl, span⟩ := stands
  rw [span]
  refine ⟨?_, ?_, ?_, ?_⟩
  · simp only [String.utf8ByteSize_append]
    omega
  · simp only [String.utf8ByteSize_append]
    omega
  · exact (String.Pos.Raw.isValid_rawEndPos.append_right t.lexeme).append_right after
  · exact String.Pos.Raw.isValid_rawEndPos.append_right after

/-- The place of a token is reported as the position behind the text before it. -/
theorem StandsIn.position (stands : t.StandsIn text before after) :
    Position.of? text t.span.start = some (.after before.toList) := by
  rw [Position.of?, stands.span, ← Text.byteLength_toList, stands.text, String.append_assoc,
    String.toList_append, Text.before?_append]
  rfl

theorem scan_eq (text : String) : ∃ ts, scan text = ts ++ [endAt text.utf8ByteSize] ∧
    ∀ t ∈ ts, ∃ before after, t.StandsIn text before after := by
  have lexed : Lexed 0 text.toList (scan text) := lexed_scanFrom _ 0
  obtain ⟨ts, whole, placed, _⟩ := lexed.placed [] rfl
  rw [List.nil_append, Text.byteLength_toList] at whole
  refine ⟨ts, whole, fun t member => ?_⟩
  obtain ⟨before, after, stands, _⟩ := (placed t member).1.standsIn
  exact ⟨before, after, stands⟩

/-- Every token stands in the text, and so does the end of the input. -/
theorem standsIn_scan (member : t ∈ scan text) :
    ∃ before after, t.StandsIn text before after := by
  obtain ⟨ts, whole, stands⟩ := scan_eq text
  rw [whole, List.mem_append, List.mem_singleton] at member
  rcases member with member | rfl
  · exact stands t member
  · refine ⟨text, "", ?_, ?_⟩
    · simp [endAt]
    · simp [endAt]

theorem contained_scan (text : String) : Parse.Contained (scan text) := by
  obtain ⟨ts, whole, _⟩ := scan_eq text
  refine Parse.contained (fun t last => ?_) ?_
  · rw [whole, List.getLast?_concat] at last
    cases last
    rfl
  · rw [whole, List.length_append]
    exact Nat.succ_pos _

end Token

/-! ## The places of failures -/

/-- A text that cannot be read is at fault at one of its tokens. -/
theorem Program.ofText_span {text : String} {failure : Failure}
    (fails : Program.ofText text = .error failure) :
    ∃ t ∈ Token.scan text, failure.span? = some t.span := by
  unfold Program.ofText at fails
  cases found : Token.faults (Token.scan text) with
  | cons fault faults =>
      simp only [found] at fails
      cases fails
      have member : fault ∈ Token.faults (Token.scan text) := found ▸ List.mem_cons_self
      rw [Token.faults_eq] at member
      obtain ⟨t, unknown, rfl⟩ := List.mem_map.mp member
      exact ⟨t, (List.mem_filter.mp unknown).1, rfl⟩
  | nil =>
      simp only [found, Program.ofTokens] at fails
      have contained := Token.contained_scan text
      cases read : Parse.program maxNesting (Cursor.ofTokens (Token.scan text)) with
      | ok program c =>
          rw [read] at fails
          cases fails
      | error e c =>
          rw [read] at fails
          cases fails
          obtain ⟨t, member, place⟩ :=
            ((contained.program maxNesting 0 contained.nonempty).error e c read).1
          exact ⟨t, member, congrArg some place⟩

/-- A text of three characters in four bytes that ends too early. -/
example : Program.ofText "\"é\"" = .error (.grammar (.unexpectedEnd (.token .semi) ⟨4, 4⟩)) := by
  with_unfolding_all rfl

/-- Where a failure has a position, the report of the failure is that of a source with this one
fault. -/
theorem Failure.diagnostics?_eq {text : String} {failure : Failure} {span : Span} {p : Position}
    (place : failure.span? = some span) (position : Position.of? text span.start = some p) :
    ({ text, faults := [⟨failure.message, span⟩] } : Source).diagnostics?
      = some (failure.report text) := by
  simp [Source.diagnostics?, Source.faultLine?, position, Failure.report, place]

/-! ## Runs of texts -/

variable {limit : Nat} {scope : Scope} {text : String} {m m' : Machine}

/-- How the run of a text ends: without a program, or as its program does. -/
theorem interpret_eq (limit : Nat) (scope : Scope) (text : String) (m : Machine) :
    interpret limit scope text m
      = match Program.ofText text with
        | .error failure => .error failure m
        | .ok program =>
            match program.eval limit scope m with
            | .ok v m' => .ok v m'
            | .error e m' => .error (.evaluation e) m' := by
  unfold interpret
  cases Program.ofText text with
  | error failure => rfl
  | ok program =>
      simp only [EStateM.adaptExcept]
      cases program.eval limit scope m <;> rfl

/-- A machine on which texts can be run in a scope. -/
structure Scope.Usable (scope : Scope) (m : Machine) : Prop where
  wellFormed : m.WellFormed
  has : m.Has (.frame scope)

theorem Scope.Usable.withOutput (usable : scope.Usable m) (output : String) :
    scope.Usable { m with output } :=
  ⟨usable.wellFormed.withOutput output, usable.has⟩

theorem Scope.Usable.after_eval (usable : scope.Usable m) (limit : Nat) (program : Program) :
    scope.Usable ((program.eval limit scope).after m) := by
  have held : .frame scope ∈ (Host.owner m).held := Machine.mem_objects.mpr usable.has
  have keeps := Eval.keeps_of_step usable.wellFormed (.program limit program held)
  exact ⟨keeps.wellFormed, keeps.within _ usable.has⟩

/-- A text that has a value leaves a machine on which the next text can be run. -/
theorem Scope.Usable.of_interpret_ok (usable : scope.Usable m) {v : Value}
    (runs : interpret limit scope text m = .ok v m') : scope.Usable m' := by
  rw [interpret_eq] at runs
  cases read : Program.ofText text with
  | error failure =>
      rw [read] at runs
      cases runs
  | ok program =>
      have left := usable.after_eval limit program
      simp only [read] at runs
      cases ending : program.eval limit scope m with
      | error e m'' =>
          rw [ending] at runs
          cases runs
      | ok v m'' =>
          rw [ending] at runs
          cases runs
          rwa [Eval.after_ok ending] at left

/-- So does a text that fails, and it is not for want of an argument. -/
theorem Scope.Usable.of_interpret_error (usable : scope.Usable m) {failure : Failure}
    (fails : interpret limit scope text m = .error failure m') :
    scope.Usable m' ∧ (Program.ofText text = .error failure ∨
      ∃ e, failure = .evaluation e ∧ e.isMissing = false) := by
  rw [interpret_eq] at fails
  cases read : Program.ofText text with
  | error failure' =>
      rw [read] at fails
      cases fails
      exact ⟨usable, .inl rfl⟩
  | ok program =>
      have left := usable.after_eval limit program
      simp only [read] at fails
      cases ending : program.eval limit scope m with
      | ok v m'' =>
          rw [ending] at fails
          cases fails
      | error e m'' =>
          rw [ending] at fails
          cases fails
          rw [Eval.after_error ending] at left
          have calls := Eval.supplying.relatesCalls_callLeft limit limit
          have anywhere : Eval.supplying.scopes () scope scope := trivial
          have supplied := Eval.Congruence.related_program calls anywhere program
          exact ⟨left, .inr ⟨e, rfl, supplied.arguments m e m' ending⟩⟩

/-! ## Sessions -/

namespace Session

/-- The session after texts that are entered one after the other. -/
def enterAll (session : Session) (texts : List String) : Session :=
  texts.foldl (fun session text => (session.enter text).2) session

/-- The machine of a session is one on which its texts can be run. -/
def Usable (session : Session) : Prop := session.scope.Usable session.machine

theorem usable_start (limit : Nat) : (start limit).Usable := by
  have made := (Host.Step.programScope {}).sound Host.sound_empty
  exact ⟨made.wellFormed, made.exist _ List.mem_cons_self⟩

theorem Usable.enter {session : Session} (usable : session.Usable) (text : String) :
    (session.enter text).2.Usable := by
  have before := Scope.Usable.withOutput usable ""
  unfold Session.enter
  cases ending : interpret session.limit session.scope text
      { session.machine with output := "" } with
  | ok v m => exact before.of_interpret_ok ending
  | error failure m => exact (before.of_interpret_error ending).1

theorem Usable.enterAll {session : Session} (usable : session.Usable) (texts : List String) :
    (session.enterAll texts).Usable := by
  induction texts generalizing session with
  | nil => exact usable
  | cons text texts ih => exact ih (usable.enter text)

end Session

/-- Nothing that a session is given leads to an operation that cannot be done. The prelude can be
defined on every machine. Of every text the tokens are cut out between characters, and the parsers
stay within the tokens. Evaluation runs the functions of the prelude on as many arguments as they
take, and on these they miss none. Whatever texts came before, a text does not fail for want of an
argument, and a failure with a place is in the text and can be reported. -/
theorem session_safe (limit : Nat) (texts : List String) (text : String) :
    (∀ m, Eval.programScope m = .ok m.programScope.1 m.programScope.2) ∧
    (∀ t ∈ Token.scan text, t.span.In text ∧ ∃ before after, t.StandsIn text before after) ∧
    Parse.Contained (Token.scan text) ∧
    (∀ native, Builtin.Implements native → ∀ scope program,
      Program.evalVia native limit scope program = program.eval limit scope) ∧
    (∀ b args m e m', args.length = Builtin.arity b → b.run args m = .error e m' →
      e.isMissing = false) ∧
    let session := (Session.start limit).enterAll texts
    ∀ output failure m,
      interpret session.limit session.scope text { session.machine with output }
        = .error failure m →
      (∀ e, failure = .evaluation e → e.isMissing = false) ∧
      ∀ span, failure.span? = some span → span.In text ∧
        ({ text, faults := [⟨failure.message, span⟩] } : Source).diagnostics?
          = some (failure.report text) := by
  refine ⟨Eval.programScope_eq, ?_, Token.contained_scan text, ?_, ?_, ?_⟩
  · intro t member
    obtain ⟨before, after, stands⟩ := Token.standsIn_scan member
    exact ⟨stands.span_in, before, after, stands⟩
  · intro native implements scope program
    exact Program.evalVia_eq implements limit scope program
  · intro b args m e m' fits stops
    exact Builtin.run_fits fits stops
  · intro session output failure m fails
    have usable := (Session.usable_start limit).enterAll texts
    obtain ⟨_, unread | ⟨e, rfl, raised⟩⟩ :=
      (Scope.Usable.withOutput usable output).of_interpret_error fails
    · obtain ⟨t, member, place⟩ := Program.ofText_span unread
      obtain ⟨before, after, stands⟩ := Token.standsIn_scan member
      refine ⟨?_, ?_⟩
      · rintro e rfl
        cases place
      · intro span same
        rw [place] at same
        cases same
        exact ⟨stands.span_in, Failure.diagnostics?_eq place stands.position⟩
    · refine ⟨?_, ?_⟩
      · intro e' same
        cases same
        exact raised
      · intro span same
        cases same

end Bramble
