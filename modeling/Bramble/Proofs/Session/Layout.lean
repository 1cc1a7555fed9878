import Bramble.Proofs.Grammar.Layout
import Bramble.Proofs.Session.Safety

/-!
# Layout does not count

Spaces and comments are dropped when a text is scanned, and they leave no trace but in the places of
the tokens. Texts with the same tokens up to places have the same lexical faults and hold the same
program, or fail at corresponding tokens. So running them is the same: they give the same value,
print the same and leave the same machine, or they fail for the same reason, each at its own token
of one index (`layout_immaterial`).
-/

set_option autoImplicit false

namespace Bramble

/-! ## Failures at corresponding tokens -/

/-- The same fault at two places: each at the token of its own list at one index. -/
def Diagnostic.Opposite (ts us : List Token) (fault fault' : Diagnostic) : Prop :=
  ∃ t u, Token.Opposite ts us t u ∧ fault.span = t.span ∧ fault' = { fault with span := u.span }

/-- The same failure of two texts with the given tokens. Where it has a place, it is reported at the
tokens of one index. -/
def Failure.Opposite (ts us : List Token) : Failure → Failure → Prop
  | .lexical fault, .lexical fault' => fault.Opposite ts us fault'
  | .grammar e, .grammar e' => e.Opposite ts us e'
  | .evaluation e, .evaluation e' => e' = e
  | _, _ => False

variable {ts us : List Token}

theorem ParseError.Opposite.message {e e' : ParseError} (opposite : e.Opposite ts us e') :
    e'.message = e.message := by
  obtain ⟨t, u, _, _, rfl⟩ := opposite
  exact e.message_relocate u.span

theorem Failure.Opposite.message {failure failure' : Failure}
    (opposite : failure.Opposite ts us failure') : failure'.message = failure.message := by
  match failure, failure', opposite with
  | .lexical fault, .lexical _, ⟨t, u, _, _, rfl⟩ => rfl
  | .grammar e, .grammar e', opposite => exact ParseError.Opposite.message opposite
  | .evaluation e, .evaluation _, rfl => rfl

/-- The faults of tokens that differ in their places only correspond one by one. -/
theorem Token.AlikeAll.faults (alike : Token.AlikeAll ts us) :
    List.Forall₂ (Diagnostic.Opposite ts us) (Token.faults ts) (Token.faults us) := by
  induction alike with
  | nil => exact .nil
  | @cons t u ts us first others ih =>
      have later : List.Forall₂ (Diagnostic.Opposite (t :: ts) (u :: us)) (Token.faults ts)
          (Token.faults us) := by
        refine ih.imp fun fault fault' corresponding => ?_
        obtain ⟨t', u', opposite, place, same⟩ := corresponding
        exact ⟨t', u', opposite.cons t u, place, same⟩
      unfold Token.faults at later ⊢
      by_cases unknown : t.kind = .unknown
      · have here : t.fault? = some ⟨"Unrecognized character `" ++ t.lexeme ++ "`", t.span⟩ :=
          if_pos unknown
        have here' : u.fault? = some ⟨"Unrecognized character `" ++ t.lexeme ++ "`", u.span⟩ := by
          rw [← first.lexeme]
          exact if_pos (first.kind.trans unknown)
        rw [List.filterMap_cons_some here, List.filterMap_cons_some here']
        exact .cons ⟨t, u, ⟨0, rfl, rfl⟩, rfl, rfl⟩ later
      · have known : t.fault? = none := if_neg unknown
        have known' : u.fault? = none := if_neg (first.kind ▸ unknown)
        rw [List.filterMap_cons_none known, List.filterMap_cons_none known']
        exact later

/-! ## Texts -/

variable {s t : String}

theorem Token.closed_scan (text : String) : closed (scan text) = scan text := by
  obtain ⟨ts, whole, _⟩ := scan_eq text
  rw [whole, closed_concat]
  exact if_pos rfl

/-- Texts with the same tokens up to places hold the same program or fail at corresponding
tokens. -/
theorem Program.ofText_inStep (alike : Token.AlikeAll (Token.scan s) (Token.scan t)) :
    (∃ p, Program.ofText s = .ok p ∧ Program.ofText t = .ok p) ∨
      ∃ failure failure', Program.ofText s = .error failure ∧ Program.ofText t = .error failure' ∧
        failure.Opposite (Token.scan s) (Token.scan t) failure' := by
  have corresponding := alike.faults
  cases found : Token.faults (Token.scan s) with
  | cons fault _ =>
      rw [found] at corresponding
      obtain ⟨fault', _, first, _, found'⟩ := List.forall₂_cons_left_iff.mp corresponding
      refine .inr ⟨.lexical fault, .lexical fault', ?_, ?_, first⟩
      · simp only [Program.ofText, found]
      · simp only [Program.ofText, found']
  | nil =>
      rw [found] at corresponding
      have found' := List.forall₂_nil_left_iff.mp corresponding
      simp only [Program.ofText, found, found']
      obtain ⟨p, read, read'⟩ | ⟨e, e', fails, fails', opposite⟩ := Program.ofTokens_inStep alike
      · rw [read, read']
        exact .inl ⟨p, rfl, rfl⟩
      · rw [Token.closed_scan, Token.closed_scan] at opposite
        rw [fails, fails']
        exact .inr ⟨.grammar e, .grammar e', rfl, rfl, opposite⟩

/-- Places do not count. Tokens that differ in their places only are read as the same program, or
reading them fails with the same error at the tokens of one index. Texts with the same tokens up to
places have the same value and leave the same machine, with the same text printed, or they fail
with the same error, and where that has a place, at the tokens of one index. -/
theorem layout_immaterial :
    (∀ ts us : List Token, Token.AlikeAll ts us →
      (∀ p, Program.ofTokens ts = .ok p ↔ Program.ofTokens us = .ok p) ∧
      ∀ e, Program.ofTokens ts = .error e → ∃ e', Program.ofTokens us = .error e' ∧
        e'.message = e.message ∧ e.Opposite (Token.closed ts) (Token.closed us) e') ∧
    ∀ s t : String, Token.AlikeAll (Token.scan s) (Token.scan t) →
      ∀ (limit : Nat) (scope : Scope) (m : Machine),
        (∀ v m', interpret limit scope s m = .ok v m' ↔ interpret limit scope t m = .ok v m') ∧
        ∀ failure m', interpret limit scope s m = .error failure m' →
          ∃ failure', interpret limit scope t m = .error failure' m' ∧
            failure'.message = failure.message ∧
            failure.Opposite (Token.scan s) (Token.scan t) failure' := by
  refine ⟨fun ts us alike => ?_, fun s t alike limit scope m => ?_⟩
  · obtain ⟨p, read, read'⟩ | ⟨e, e', fails, fails', opposite⟩ := Program.ofTokens_inStep alike
    · rw [read, read']
      exact ⟨fun _ => Iff.rfl, fun e never => by cases never⟩
    · rw [fails, fails']
      refine ⟨fun p => ?_, fun _ same => ?_⟩
      · constructor <;> (intro never; cases never)
      · cases same
        exact ⟨e', rfl, opposite.message, opposite⟩
  · rw [interpret_eq limit scope s, interpret_eq limit scope t]
    obtain ⟨p, read, read'⟩ | ⟨failure, failure', fails, fails', opposite⟩ :=
      Program.ofText_inStep alike
    · rw [read, read']
      refine ⟨fun _ _ => Iff.rfl, fun failure m' stops => ⟨failure, stops, rfl, ?_⟩⟩
      -- Both run one program, so only evaluation can fail here.
      cases ending : p.eval limit scope m with
      | ok v m'' =>
          simp only [ending] at stops
          cases stops
      | error e m'' =>
          simp only [ending] at stops
          cases stops
          rfl
    · rw [fails, fails']
      refine ⟨fun v m' => ?_, fun _ m' same => ?_⟩
      · constructor <;> (intro never; cases never)
      · cases same
        exact ⟨failure', rfl, opposite.message, opposite⟩

/-- A call that is not closed, with and without spaces and a comment. -/
theorem unclosedCall_respaced :
    Token.AlikeAll (Token.scan "f(1") (Token.scan " f // one\n(1") ∧
      ∃ failure' m', interpret 2 0 " f // one\n(1" {} = .error failure' m' ∧
        failure'.message = "Unmatched delimiter `(`" ∧
        Failure.Opposite (Token.scan "f(1") (Token.scan " f // one\n(1")
          (.grammar (.unmatchedDelimiter '(' ⟨1, 2⟩)) failure' := by
  have close : Token.scan "f(1" = [⟨.identifier, "f", ⟨0, 1⟩⟩, ⟨.openParen, "(", ⟨1, 2⟩⟩,
      ⟨.intLit, "1", ⟨2, 3⟩⟩, .endAt 3] := by with_unfolding_all rfl
  have wide : Token.scan " f // one\n(1" = [⟨.identifier, "f", ⟨1, 2⟩⟩, ⟨.openParen, "(", ⟨10, 11⟩⟩,
      ⟨.intLit, "1", ⟨11, 12⟩⟩, .endAt 12] := by with_unfolding_all rfl
  have alike : Token.AlikeAll (Token.scan "f(1") (Token.scan " f // one\n(1") := by
    rw [close, wide]
    exact .cons ⟨rfl, rfl⟩ (.cons ⟨rfl, rfl⟩ (.cons ⟨rfl, rfl⟩ (.cons ⟨rfl, rfl⟩ .nil)))
  have fails : interpret 2 0 "f(1" {} = .error (.grammar (.unmatchedDelimiter '(' ⟨1, 2⟩)) {} := by
    with_unfolding_all rfl
  obtain ⟨failure', fails', message, opposite⟩ := (layout_immaterial.2 _ _ alike 2 0 {}).2 _ _ fails
  exact ⟨alike, failure', {}, fails', message, opposite⟩

end Bramble
