import Bramble.Proofs.Grammar.Advance

/-!
# What successful parsers have taken

A parser that succeeds has taken tokens from its cursor, and `c = c'.push ts` says which: `ts` stood
between the cursor `c` that it began at and the cursor `c'` that it has left. For every primitive
parser, and for the two forms of repetition, the lemmas here say what the tokens were when it has
succeeded, up to lists with commas (`of_listed`).
-/

set_option autoImplicit false

namespace Bramble
namespace Parse

open Grammar

section Primitive

variable {α β : Type} {c c' : Cursor} {kind : Token.Kind}

/-- A cursor with a token of a kind next. -/
theorem exists_of_nextKind? (next : c.nextKind? = some kind) :
    ∃ (t : Token) (rest : Cursor), c = rest.push [t] ∧ t.kind = kind := by
  obtain ⟨ahead, stop⟩ := c
  cases ahead with
  | nil => cases next
  | cons t ts => exact ⟨t, ⟨ts, stop⟩, rfl, Option.some_inj.mp next⟩

/-- A token has been taken, or nothing was found for the next one. -/
theorem of_take? {find : Token.Kind → Option α} {taken : Option (Token × α)}
    (ok : take? find c = .ok taken c') :
    (taken = none ∧ c' = c ∧ c.nextKind?.bind find = none) ∨
      ∃ t x, taken = some (t, x) ∧ c = c'.push [t] ∧ find t.kind = some x := by
  rcases take?_cases find c with ⟨nothing, still⟩ | ⟨t, x, rest, rfl, found, took⟩
  · rw [still] at ok
    cases ok
    exact .inl ⟨rfl, rfl, nothing⟩
  · rw [took] at ok
    cases ok
    exact .inr ⟨t, x, rfl, rfl, found⟩

theorem of_accept {b : Bool} (ok : accept (M := Parse) kind c = .ok b c') :
    (b = true ∧ ∃ t, c = c'.push [t] ∧ t.kind = kind) ∨
      (b = false ∧ c' = c ∧ c.nextKind? ≠ some kind) := by
  by_cases next : c.nextKind? = some kind
  · obtain ⟨t, rest, rfl, same⟩ := exists_of_nextKind? next
    rw [accept_of_kind same] at ok
    cases ok
    exact .inl ⟨rfl, t, rfl, same⟩
  · rw [accept_of_ne next] at ok
    cases ok
    exact .inr ⟨rfl, rfl, next⟩

theorem of_sees {b : Bool} (ok : sees (M := Parse) kind c = .ok b c') :
    c' = c ∧ b = decide (c.nextKind? = some kind) := by
  rw [sees_eq] at ok
  cases ok
  exact ⟨rfl, rfl⟩

theorem unexpected_ne_ok {expected : Expectation} {a : α} :
    (unexpected expected : Parse α) c ≠ .ok a c' := by
  obtain ⟨ahead, stop⟩ := c
  cases ahead <;> exact fun ok => nomatch ok

theorem of_expect {t : Token} (ok : expect (M := Parse) kind c = .ok t c') :
    c = c'.push [t] ∧ t.kind = kind := by
  by_cases next : c.nextKind? = some kind
  · obtain ⟨t, rest, rfl, same⟩ := exists_of_nextKind? next
    rw [expect_of_kind same] at ok
    cases ok
    exact ⟨rfl, same⟩
  · rw [expect_of_ne next] at ok
    exact absurd ok unexpected_ne_ok

theorem of_name {x : String} (ok : name (M := Parse) c = .ok x c') :
    ∃ t : Token, c = c'.push [t] ∧ t.Names x := by
  obtain ⟨t, mid, expected, done⟩ := of_bind ok
  obtain ⟨rfl, same⟩ := of_expect expected
  cases done
  exact ⟨t, rfl, same, rfl⟩

theorem of_close {opening : Token} (ok : close (M := Parse) kind opening c = .ok () c') :
    ∃ t, c = c'.push [t] ∧ t.kind = kind := by
  obtain ⟨b, mid, accepted, done⟩ := of_bind ok
  rcases of_accept accepted with ⟨rfl, t, rfl, same⟩ | ⟨rfl, rfl, _⟩
  · cases done
    exact ⟨t, rfl, same⟩
  · cases done

end Primitive

/-! ## Repetition -/

section Repetition

variable {α σ : Type}

/-- What every round keeps holds at the end, where a round has no result. -/
theorem of_iterate {step : σ → Parse (Option σ)} (holds : σ → Cursor → Prop)
    (keeps : ∀ s c s' c', holds s c → step s c = .ok (some s') c' →
      holds s' c' ∧ c'.ahead.length < c.ahead.length)
    {s a : σ} {c c' : Cursor} (start : holds s c) (ok : iterate step s c = .ok a c') :
    ∃ mid, holds a mid ∧ step a mid = .ok none c' := by
  fun_induction iterate step s c with
  | case1 s c e rest failed => cases ok
  | case2 s c rest last =>
      cases ok
      exact ⟨c, start, last⟩
  | case3 s c next rest round shorter ih => exact ih (keeps s c next rest start round).1 ok
  | case4 s c next rest round longer =>
      exact absurd (keeps s c next rest start round).2 longer

/-- What holds of the last round and is carried over by each round before it holds of them all. -/
theorem of_collect {step : Parse (Option α)} (holds : Cursor → List α → Cursor → Prop)
    (last : ∀ c c', step c = .ok none c' → holds c [] c')
    (more : ∀ c a mid as c', step c = .ok (some a) mid → holds mid as c' → holds c (a :: as) c')
    (shorter : ∀ c a mid, step c = .ok (some a) mid → mid.ahead.length < c.ahead.length)
    {as : List α} {c c' : Cursor} (ok : collect step c = .ok as c') : holds c as c' := by
  -- What is found so far stays, and what follows is in order behind it.
  have rounds {found all : List α} {c : Cursor}
      (ok : iterate (addRound step) found c = .ok all c') :
      ∃ as, all = as.reverse ++ found ∧ holds c as c' := by
    fun_induction iterate (addRound step) found c with
    | case1 found c e rest failed => cases ok
    | case2 found c rest ended =>
        cases ok
        exact ⟨[], rfl, last c _ (of_addRound_none ended)⟩
    | case3 found c found' rest added _ ih =>
        obtain ⟨a, round, rfl⟩ := of_addRound_some added
        obtain ⟨as, rfl, held⟩ := ih ok
        exact ⟨a :: as, by simp, more c a rest as c' round held⟩
    | case4 found c found' rest added longer =>
        obtain ⟨a, round, rfl⟩ := of_addRound_some added
        exact absurd (shorter c a rest round) longer
  obtain ⟨all, mid, repeated, done⟩ := of_bind ok
  cases done
  obtain ⟨as, rfl, held⟩ := rounds repeated
  simpa using held

end Repetition

/-! ## Lists with commas -/

section Listed

variable {α : Type} {item : Parse α} {opening : Token} {c c' : Cursor}

theorem of_another {r : Option α} (ok : another? item opening c = .ok r c') :
    (r = none ∧ ∃ t, c = c'.push [t] ∧ t.kind = .closeParen) ∨
      ∃ a comma mid, r = some a ∧ c = mid.push [comma] ∧ comma.kind = .comma ∧
        item mid = .ok a c' := by
  obtain ⟨closed, mid, tried, unclosed⟩ := of_bind ok
  rcases of_accept tried with ⟨rfl, t, rfl, same⟩ | ⟨rfl, rfl, _⟩
  · cases unclosed
    exact .inl ⟨rfl, t, rfl, same⟩
  · obtain ⟨more, mid, triedComma, continues⟩ := of_bind unclosed
    rcases of_accept triedComma with ⟨rfl, t, rfl, same⟩ | ⟨rfl, rfl, _⟩
    · obtain ⟨a, last, read, done⟩ := of_bind continues
      cases done
      exact .inr ⟨a, t, mid, rfl, rfl, same, read⟩
    · cases continues

variable {renders : α → List Token → Prop} {good : α → Prop}
  (sound : ∀ c a c', item c = .ok a c' → ∃ ts, c = c'.push ts ∧ renders a ts ∧ good a)

include sound

/-- Behind any item, the rounds continue the list of that item. -/
theorem of_collect_another {as : List α}
    (ok : collect (another? item opening) c = .ok as c') {a : α} {ts : List Token}
    (before : renders a ts) :
    ∃ us closing, c = c'.push (us ++ [closing]) ∧ closing.kind = .closeParen ∧
      Separated renders (a :: as) (ts ++ us) ∧ ∀ b ∈ as, good b := by
  refine of_collect (fun c as c' => ∀ a ts, renders a ts →
    ∃ us closing, c = c'.push (us ++ [closing]) ∧ closing.kind = .closeParen ∧
      Separated renders (a :: as) (ts ++ us) ∧ ∀ b ∈ as, good b) ?_ ?_ ?_ ok a ts before
  · intro c c' round a ts before
    rcases of_another round with ⟨_, t, rfl, closes⟩ | ⟨_, _, _, impossible, _⟩
    · exact ⟨[], t, rfl, closes, by rw [List.append_nil]; exact .one before, by simp⟩
    · cases impossible
  · intro c b mid as c' round continued a ts before
    rcases of_another round with ⟨impossible, _⟩ | ⟨_, comma, start, same, rfl, between, read⟩
    · cases impossible
    · cases same
      obtain ⟨us, rfl, renders, fine⟩ := sound _ _ _ read
      obtain ⟨vs, closing, rfl, closes, separated, others⟩ := continued b us renders
      exact ⟨comma :: (us ++ vs), closing, by simp, closes, .more before between separated,
        List.forall_mem_cons.mpr ⟨fine, others⟩⟩
  · intro c b mid round
    rcases of_another round with ⟨impossible, _⟩ | ⟨_, comma, start, same, rfl, between, read⟩
    · cases impossible
    · obtain ⟨us, rfl, _⟩ := sound _ _ _ read
      simp only [Cursor.ahead_push, List.length_append, List.length_cons, List.length_nil]
      omega

/-- A list that has been read, for items that render the tokens they were read from. -/
theorem of_listed {as : List α} (ok : listed item opening c = .ok as c') :
    ∃ ts closing, c = c'.push (ts ++ [closing]) ∧ closing.kind = .closeParen ∧
      Separated renders as ts ∧ ∀ a ∈ as, good a := by
  obtain ⟨closed, mid, tried, unclosed⟩ := of_bind ok
  rcases of_accept tried with ⟨rfl, t, rfl, same⟩ | ⟨rfl, rfl, _⟩
  · cases unclosed
    exact ⟨[], t, rfl, same, .none, by simp⟩
  · obtain ⟨first, mid, read, continues⟩ := of_bind unclosed
    obtain ⟨others, last, collected, done⟩ := of_bind continues
    cases done
    obtain ⟨ts, rfl, renders, fine⟩ := sound _ _ _ read
    obtain ⟨us, closing, rfl, closes, separated, rest⟩ :=
      of_collect_another sound collected renders
    exact ⟨ts ++ us, closing, by simp, closes, separated, List.forall_mem_cons.mpr ⟨fine, rest⟩⟩

end Listed

end Parse
end Bramble
