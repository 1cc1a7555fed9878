import Bramble.Proofs.Grammar.Following

/-!
# Readers that are used again

A reader may be asked again after each answer, also after an error. It keeps nothing from what it
was asked before but its index: no level stays open, the index stays in the list, and the tokens
before it are not looked at again. So it answers as a new reader of the remaining tokens does, and
takes as many of them (`reader_has_no_memory`).
-/

set_option autoImplicit false

namespace Bramble

namespace Cursor

/-- The answer of the parsers to a request, with all levels left. -/
def answer (c : Cursor) (request : Request) : Except ParseError request.Result :=
  match request.parse maxNesting c with
  | .ok a _ => .ok a
  | .error e _ => .error e

/-- The cursor after the parser of a request. -/
def after (c : Cursor) (request : Request) : Cursor :=
  match request.parse maxNesting c with
  | .ok _ c' => c'
  | .error _ c' => c'

end Cursor

namespace Reader

variable {r : Reader}

/-- A reader between two requests: it is at an index of its list, and no level is open. -/
structure Idle (r : Reader) : Prop extends r.Sound where
  closed : r.depth = 0

theorem idle_ofTokens (tokens : List Token) : (ofTokens tokens).Idle :=
  ⟨sound_ofTokens tokens, rfl⟩

/-- One request: the reader is led on, and it answers as the parsers do with what is ahead. -/
theorem Idle.served (idle : r.Idle) (request : Request) :
    r.Leads (r.after request) ∧ r.answer request = r.cursor.answer request ∧
      (r.after request).cursor = r.cursor.after request := by
  have ends := request.follows maxNesting r idle.toSound (by rw [idle.closed, Nat.zero_add])
  unfold after answer Cursor.answer Cursor.after
  generalize request.read r = x at ends
  generalize request.parse maxNesting r.cursor = y at ends
  cases ends with
  | ok leads same => exact ⟨leads, congrArg _ same, rfl⟩
  | error leads => exact ⟨leads, rfl, rfl⟩

theorem Idle.leads {r' : Reader} (idle : r.Idle) (leads : r.Leads r') : r'.Idle :=
  ⟨idle.toSound.leads leads, leads.depth.trans idle.closed⟩

/-- A sequence of requests. -/
theorem Idle.leads_afterAll (idle : r.Idle) (requests : List Request) :
    r.Leads (r.afterAll requests) := by
  induction requests generalizing r with
  | nil => exact idle.toSound.refl
  | cons request requests ih =>
      have first := (idle.served request).1
      exact first.trans (ih (idle.leads first))

/-- A new reader of the remaining tokens has the same tokens ahead. -/
theorem cursor_ofTokens_drop (r : Reader) :
    (ofTokens (r.tokens.drop r.index)).cursor = r.cursor :=
  Cursor.ofTokens_closed (r.tokens.drop r.index)

end Reader

/-- A reader has no memory but its index. Whatever it was asked before, and whether it could answer
or not, no level is open and the index is in the list, whose tokens are those that it was given. To
the next request it gives the answer of a new reader of the remaining tokens and takes as many
tokens as that one does; and this is the answer of the parsers, which end at the same tokens. -/
theorem reader_has_no_memory (tokens : List Token) (requests : List Request) :
    let r := (Reader.ofTokens tokens).afterAll requests
    r.depth = 0 ∧ r.index < r.tokens.length ∧ r.tokens = Token.closed tokens ∧
      ∀ request : Request,
        let remaining := r.tokens.drop r.index
        let fresh := Reader.ofTokens remaining
        r.answer request = fresh.answer request ∧
        (r.after request).index = r.index + (fresh.after request).index ∧
        r.answer request = (Cursor.ofTokens remaining).answer request ∧
        (Cursor.ofTokens remaining).after request
          = Cursor.ofTokens (remaining.drop (fresh.after request).index) := by
  intro r
  have start := Reader.idle_ofTokens tokens
  have led : (Reader.ofTokens tokens).Leads r := start.leads_afterAll requests
  have idle : r.Idle := start.leads led
  refine ⟨idle.closed, idle.inside, led.tokens, fun request => ?_⟩
  intro remaining fresh
  have same : fresh.cursor = r.cursor := r.cursor_ofTokens_drop
  have begun : fresh.Idle := Reader.idle_ofTokens remaining
  obtain ⟨leads, answer, after⟩ := idle.served request
  obtain ⟨leads', answer', after'⟩ := begun.served request
  rw [same] at answer' after'
  have index : (r.after request).index = r.index + (fresh.after request).index := by
    have length := idle.toSound.length_ahead leads
    have length' := begun.toSound.length_ahead leads'
    rw [same, after', ← after] at length'
    have forward := leads.forward
    have zero : fresh.index = 0 := rfl
    omega
  refine ⟨answer.trans answer'.symm, index, answer, ?_⟩
  calc (Cursor.ofTokens remaining).after request
      = (r.after request).cursor := after.symm
    _ = Cursor.ofTokens (r.tokens.drop (r.after request).index) := by
        rw [Reader.cursor, leads.tokens]
        rfl
    _ = Cursor.ofTokens (remaining.drop (fresh.after request).index) := by
        rw [index, List.drop_drop]

end Bramble
