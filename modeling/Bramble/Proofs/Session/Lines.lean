import Bramble.Proofs.Eval.Sequence
import Bramble.Proofs.Grammar.Joining
import Bramble.Proofs.Token.Lines
import Bramble.Session.Interpret

/-!
# A session line by line

Texts that are run one after the other in one scope do what their lines do as one text
(`interpret_lines`). This is put together from three facts, one for each layer: a text is scanned in
front of a line feed as it is scanned alone, programs are read from joined tokens as one program,
and the statements of a joined list are run one list after the other.
-/

set_option autoImplicit false

namespace Bramble

/-! ## Joined texts -/

theorem Token.faults_eq_nil_iff {ts : List Token} :
    Token.faults ts = [] ↔ ∀ t ∈ ts, t.kind ≠ .unknown := by
  simp [Token.faults, Token.fault?]

theorem Program.ofText_eq_ok_iff {text : String} {p : Program} :
    Program.ofText text = .ok p ↔
      (∀ t ∈ Token.scan text, t.kind ≠ .unknown) ∧ Program.ofTokens (Token.scan text) = .ok p := by
  rw [← Token.faults_eq_nil_iff, Program.ofText]
  cases Token.faults (Token.scan text) with
  | cons fault faults => simp
  | nil =>
      cases Program.ofTokens (Token.scan text) with
      | error e =>
          refine ⟨fun same => ?_, fun both => ?_⟩
          · cases same
          · cases both.2
      | ok q =>
          refine ⟨fun same => ?_, fun both => ?_⟩
          · cases same
            exact ⟨rfl, rfl⟩
          · cases both.2
            rfl

/-- A text on the lines below another one holds the statements that come after. -/
theorem Program.ofText_line {s t : String} {p q : Program} (first : Program.ofText s = .ok p)
    (second : Program.ofText t = .ok q) : Program.ofText (s ++ "\n" ++ t) = .ok (p ++ q) := by
  rw [ofText_eq_ok_iff] at first second ⊢
  obtain ⟨known, read⟩ := first
  obtain ⟨known', read'⟩ := second
  obtain ⟨ts, unended, alone, joined⟩ := Token.scanFrom_line s.toList 0 known
  obtain ⟨us, unended', alone', _⟩ := Token.scanFrom_line t.toList 0 known'
  have tokens : Token.scan (s ++ "\n" ++ t)
      = ts ++ us.map (Token.shift (Text.byteLength s.toList + 1)) ++
        [Token.endAt (Text.byteLength s.toList + 1 + Text.byteLength t.toList)] := by
    have characters : (s ++ "\n" ++ t).toList = s.toList ++ '\n' :: t.toList := by simp
    rw [Token.scan, characters, joined, Nat.zero_add,
      ← Nat.add_zero (Text.byteLength s.toList + 1), Token.scanFrom_add, alone']
    simp [Token.shift, Token.endAt]
  rw [Token.scan, alone] at known read
  rw [Token.scan, alone'] at known' read'
  refine ⟨?_, ?_⟩
  · rw [tokens]
    simp only [List.mem_append, List.mem_map, List.mem_singleton]
    rintro t ((member | ⟨u, member, rfl⟩) | rfl)
    · exact known t (List.mem_append_left _ member)
    · exact known' u (List.mem_append_left _ member)
    · intro same
      cases same
  · rw [tokens]
    refine Program.ofTokens_append read read' unended unended' ?_
    exact List.forall₂_map_right_iff.mpr (List.forall₂_same.mpr fun _ _ => ⟨rfl, rfl⟩)

/-- A text without a token holds no statement. -/
theorem Program.ofText_of_end {text : String} {stop : Nat}
    (scanned : Token.scan text = [Token.endAt stop]) : Program.ofText text = .ok [] := by
  rw [ofText_eq_ok_iff, scanned, ofTokens_eq_ok_iff]
  exact ⟨by simp [Token.endAt], .none, trivial, Nat.zero_le _⟩

theorem Program.ofText_empty : Program.ofText "" = .ok [] := ofText_of_end (Token.scanFrom_nil 0)

/-- Texts that can be read hold the programs of all of them, one after the other, when a line feed
stands between any two. -/
theorem Program.ofText_lines {texts : List String} {programs : List Program}
    (read : texts.map Program.ofText = programs.map .ok) :
    Program.ofText ("\n".intercalate texts) = .ok programs.flatten := by
  induction texts generalizing programs with
  | nil =>
      have none : programs = [] := List.map_eq_nil_iff.mp read.symm
      subst none
      exact ofText_empty
  | cons text texts ih =>
      cases programs with
      | nil => cases read
      | cons p programs =>
          rw [List.map_cons, List.map_cons, List.cons.injEq] at read
          obtain ⟨first, others⟩ := read
          cases texts with
          | nil =>
              have none : programs = [] := List.map_eq_nil_iff.mp others.symm
              subst none
              simpa using first
          | cons next texts =>
              rw [String.intercalate_cons_of_ne_nil (List.cons_ne_nil next texts),
                List.flatten_cons]
              exact ofText_line first (ih others)

theorem Program.exists_of_readable {texts : List String}
    (readable : ∀ text ∈ texts, ∃ p, Program.ofText text = .ok p) :
    ∃ programs : List Program, texts.map Program.ofText = programs.map .ok := by
  induction texts with
  | nil => exact ⟨[], rfl⟩
  | cons text texts ih =>
      obtain ⟨p, first⟩ := readable text List.mem_cons_self
      obtain ⟨programs, others⟩ := ih fun text member =>
        readable text (List.mem_cons_of_mem _ member)
      refine ⟨p :: programs, ?_⟩
      rw [List.map_cons, List.map_cons, first, others]

/-! ## Sessions -/

/-- Whether the program of a text returns when it is run on a machine. -/
def returnsFrom (limit : Nat) (scope : Scope) (text : String) (m : Machine) : Bool :=
  match Program.ofText text with
  | .error _ => false
  | .ok program =>
      match Stmt.runAll (call limit) scope .void program m with
      | .ok (.returned _) _ => true
      | _ => false

/-- Whether a text is a program with at least one statement. -/
def holdsStatement (text : String) : Bool :=
  match Program.ofText text with
  | .ok (_ :: _) => true
  | _ => false

/-- Interprets texts one after the other in one scope, up to the first that fails or returns.
`last` is the value so far, and a text without a statement does not change it. -/
def interpretEach (limit : Nat) (scope : Scope) (last : Value) :
    List String → EStateM Failure Machine Value
  | [] => pure last
  | text :: texts => do
      let start ← get
      let v ← interpret limit scope text
      if returnsFrom limit scope text start then
        return v
      else
        interpretEach limit scope (if holdsStatement text then v else last) texts

/-- The result of a text whose statements have ended. -/
def textEnding : EStateM.Result EvalError Machine Flow → EStateM.Result Failure Machine Value
  | .ok flow m => .ok flow.value m
  | .error e m => .error (.evaluation e) m

theorem interpret_of_ofText {text : String} {p : Program} (read : Program.ofText text = .ok p)
    (limit : Nat) (scope : Scope) (m : Machine) :
    interpret limit scope text m
      = textEnding (Stmt.runAll (call limit) scope .void p m) := by
  simp only [interpret, read, EStateM.adaptExcept]
  cases ending : Stmt.runAll (call limit) scope .void p m with
  | ok flow m' =>
      have value : p.eval limit scope m = .ok flow.value m' := bind_ok ending
      rw [value]
      rfl
  | error e m' =>
      have failed : p.eval limit scope m = .error e m' := bind_error ending
      rw [failed]
      rfl

/-- One text of a session, by what its statements end with when they go on from the value so
far. -/
theorem interpretEach_cons {text : String} {p : Program} (read : Program.ofText text = .ok p)
    (limit : Nat) (scope : Scope) (last : Value) (texts : List String) (m : Machine) :
    interpretEach limit scope last (text :: texts) m
      = match Stmt.runAll (call limit) scope last p m with
        | .ok (.next v) m' => interpretEach limit scope v texts m'
        | ending => textEnding ending := by
  have start : (get : EStateM Failure Machine Machine) m = .ok m m := rfl
  have value := interpret_of_ofText read limit scope m
  rw [interpretEach, bind_ok start, returnsFrom, holdsStatement, read]
  cases p with
  | nil => exact bind_ok value
  | cons s p =>
      -- A statement gives a value of its own, so the value so far does not matter.
      have forgotten : Stmt.runAll (call limit) scope last (s :: p)
          = Stmt.runAll (call limit) scope .void (s :: p) := rfl
      rw [forgotten]
      cases ending : Stmt.runAll (call limit) scope .void (s :: p) m with
      | ok flow m' =>
          rw [ending] at value
          rw [bind_ok value]
          cases flow with
          | next v =>
              rw [if_neg (by simp [ending])]
              rfl
          | returned v =>
              rw [if_pos (by simp [ending])]
              rfl
      | error e m' =>
          rw [ending] at value
          exact bind_error value

/-- Texts one after the other run their programs one after the other. -/
theorem interpretEach_eq {texts : List String} {programs : List Program}
    (read : texts.map Program.ofText = programs.map .ok) (limit : Nat) (scope : Scope)
    (last : Value) (m : Machine) :
    interpretEach limit scope last texts m
      = textEnding (Stmt.runAll (call limit) scope last programs.flatten m) := by
  induction texts generalizing programs last m with
  | nil =>
      have none : programs = [] := List.map_eq_nil_iff.mp read.symm
      subst none
      rfl
  | cons text texts ih =>
      cases programs with
      | nil => cases read
      | cons p programs =>
          rw [List.map_cons, List.map_cons, List.cons.injEq] at read
          obtain ⟨first, others⟩ := read
          rw [interpretEach_cons first, List.flatten_cons]
          -- The next text is reached if and only if the statements of this one are completed.
          rcases next_or_stopped (Stmt.runAll (call limit) scope last p m) with
            ⟨v, m', next⟩ | stopped
          · rw [next, Stmt.runAll_append_next next]
            exact ih others v m'
          · rw [Stmt.runAll_append_stopped stopped]
            split
            · next v m' next => exact absurd next (stopped v m')
            · rfl

/-- Texts that can be read, joined by line feeds, do what they do one after the other: they print
the same, leave the same machine and end with the same value or the same error. -/
theorem interpret_lines (limit : Nat) (scope : Scope) (texts : List String)
    (readable : ∀ text ∈ texts, ∃ p, Program.ofText text = .ok p) (m : Machine) :
    interpret limit scope ("\n".intercalate texts) m
      = interpretEach limit scope .void texts m := by
  obtain ⟨programs, read⟩ := Program.exists_of_readable readable
  rw [interpret_of_ofText (Program.ofText_lines read), interpretEach_eq read]

/-- The texts of a session that returns before the last one. -/
def shortSession : List String := ["let n = 1; // a number", "", "return n;", "n = 9;"]

/-- The programs that these texts hold. -/
def shortPrograms : List Program :=
  [[.letDecl "n" (.literal (.int 1))], [], [.ret (.name "n")],
    [.expr (.assign "n" (.literal (.int 9)))]]

theorem shortSession_read : shortSession.map Program.ofText = shortPrograms.map .ok := by
  with_unfolding_all rfl

theorem shortSession_value :
    (∀ text ∈ shortSession, ∃ p, Program.ofText text = .ok p) ∧
      ∃ m', interpret 2 (Machine.newScope {}).1 ("\n".intercalate shortSession)
        (Machine.newScope {}).2 = .ok (.int 1) m' := by
  have readable : ∀ text ∈ shortSession, ∃ p, Program.ofText text = .ok p := by
    intro text member
    have read : Program.ofText text ∈ shortPrograms.map .ok :=
      shortSession_read ▸ List.mem_map_of_mem member
    obtain ⟨p, _, same⟩ := List.mem_map.mp read
    exact ⟨p, same.symm⟩
  refine ⟨readable, ?_⟩
  rw [interpret_lines 2 _ shortSession readable, interpretEach_eq shortSession_read]
  exact ⟨_, rfl⟩

end Bramble
