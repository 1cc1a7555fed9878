import Bramble.Machine.Description
import Bramble.Proofs.Grammar.Rendering
import Bramble.Proofs.Host.Evaluation
import Bramble.Proofs.Text.Order
import Bramble.Proofs.Text.Quoted

/-!
# Scopes in words

The text of a scope gives its depth and the names that its own frame binds. The frame has the names
in the order in which they came, and the text has them in the order of their bytes. Since the names
of a frame differ, there is one such order only, and since the text can be read in one way only, it
says neither more nor less than which names these are and how deep the scope lies. In particular it
does not tell in which order they were defined, nor whether they were given other values since
(`scope_text_canonical`).
-/

set_option autoImplicit false

namespace Bramble

/-! ## Reading a description -/

/-- The text for a depth and a list of names. -/
def scopeText (depth : Nat) (names : List String) : String :=
  "Scope \x7b depth: " ++ toString depth ++ ", bindings: " ++ Text.quotedList names ++ " \x7d"

theorem toList_scopeText (depth : Nat) (names : List String) :
    (scopeText depth names).toList = "Scope \x7b depth: ".toList
      ++ (Nat.toDigits 10 depth ++ ',' :: (" bindings: ".toList
        ++ ((Text.quotedList names).toList ++ " \x7d".toList))) := by
  have digits : (toString depth).toList = Nat.toDigits 10 depth := by simp
  unfold scopeText
  simp only [String.toList_append, List.append_assoc, digits]
  rfl

/-- The depth and the names can be told from the text. -/
theorem scopeText_inj {depth depth' : Nat} {names names' : List String} :
    scopeText depth names = scopeText depth' names' ↔ depth = depth' ∧ names = names' := by
  refine ⟨fun same => ?_, fun ⟨depths, lists⟩ => by rw [depths, lists]⟩
  have same := congrArg String.toList same
  rw [toList_scopeText, toList_scopeText] at same
  have same := List.append_cancel_left same
  -- The digits of the depth end at the comma.
  have ends : ∀ {rest : List Char} (c : Char),
      (',' :: rest).head? = some c → c.isDigit = false := by
    intro rest c first
    cases first
    rfl
  obtain ⟨taken, left⟩ := Token.span_append (Text.isDigits_toDigits depth).2 (ends ·)
  obtain ⟨taken', left'⟩ := Token.span_append (Text.isDigits_toDigits depth').2 (ends ·)
  have digits := taken.symm.trans ((congrArg (List.takeWhile Char.isDigit) same).trans taken')
  have others := left.symm.trans ((congrArg (List.dropWhile Char.isDigit) same).trans left')
  have depths := congrArg Text.digitsValue digits
  rw [Text.digitsValue_toDigits, Text.digitsValue_toDigits] at depths
  have lists := List.append_cancel_left (List.tail_eq_of_cons_eq others)
  exact ⟨depths, (Text.quotedList_append_inj lists).1⟩

namespace Machine

theorem inspectScope_eq (m : Machine) (scope : Scope) :
    m.inspectScope scope = scopeText (m.depth scope) (Text.sorted (m.namesIn scope)) := rfl

/-- Where the names of a frame differ, the text of a scope stands for its depth and for which names
these are. -/
theorem inspectScope_eq_iff {m m' : Machine} {scope scope' : Scope}
    (nodup : (m.namesIn scope).Nodup) (nodup' : (m'.namesIn scope').Nodup) :
    m.inspectScope scope = m'.inspectScope scope' ↔ m.depth scope = m'.depth scope' ∧
      ∀ x, x ∈ m.namesIn scope ↔ x ∈ m'.namesIn scope' := by
  rw [inspectScope_eq, inspectScope_eq, scopeText_inj]
  refine and_congr_right fun _ => ⟨fun same x => ?_, fun same => ?_⟩
  · rw [← Text.mem_sorted, same, Text.mem_sorted]
  · refine (Text.ascending_sorted nodup).eq_of_mem_iff (Text.ascending_sorted nodup') fun x => ?_
    rw [Text.mem_sorted, Text.mem_sorted, same]

end Machine

/-! ## Definitions and assignments -/

/-- A definition or an assignment of a name in a scope. -/
inductive Change where
  | define (scope : Scope) (x : String) (v : Value)
  | assign (scope : Scope) (x : String) (v : Value)

/-- Carrying out a change. -/
def Change.ask : Change → Eval Unit
  | .define scope x v => Eval.define scope x v
  | .assign scope x v => Eval.assign scope x v

/-- The name that a change defines, with its scope. -/
def Change.definition? : Change → Option (Scope × String)
  | .define scope x _ => some (scope, x)
  | .assign _ _ _ => none

namespace Machine

/-- The machine after a change, whether or not it succeeded. -/
def change (m : Machine) (c : Change) : Machine :=
  match c.ask m with
  | .ok _ m' => m'
  | .error _ m' => m'

/-- The machine after some changes, first to last. -/
def changeAll (m : Machine) (changes : List Change) : Machine := changes.foldl change m

/-- No frame has been moved or added, and those that exist have gained the names that `added` says,
where they did not bind them yet. -/
structure Gains (added : Scope → String → Prop) (m m' : Machine) : Prop where
  size : m'.frames.size = m.frames.size
  outer : ∀ scope, m'.outer scope = m.outer scope
  names : ∀ scope x, x ∈ m'.namesIn scope ↔
    x ∈ m.namesIn scope ∨ m.Has (.frame scope) ∧ added scope x
  nodup : (∀ scope, (m.namesIn scope).Nodup) → ∀ scope, (m'.namesIn scope).Nodup

section Changes

variable {m m' m'' : Machine} {added more : Scope → String → Prop}

/-- Nothing changes if the frames bind the names already. -/
theorem Gains.refl
    (known : ∀ scope x, m.Has (.frame scope) → added scope x → x ∈ m.namesIn scope) :
    Gains added m m where
  size := rfl
  outer := fun _ => rfl
  names := fun scope x => ⟨.inl, fun bound => bound.elim id fun new => known scope x new.1 new.2⟩
  nodup := id

theorem Gains.congr (gains : Gains added m m') (same : ∀ scope x, added scope x ↔ more scope x) :
    Gains more m m' := by
  have equal : added = more := funext fun scope => funext fun x => propext (same scope x)
  rwa [← equal]

theorem Gains.trans (first : Gains added m m') (second : Gains more m' m'') :
    Gains (fun scope x => added scope x ∨ more scope x) m m'' where
  size := second.size.trans first.size
  outer := fun scope => (second.outer scope).trans (first.outer scope)
  names := by
    intro scope x
    have has : m'.Has (.frame scope) ↔ m.Has (.frame scope) := by
      show scope < m'.frames.size ↔ scope < m.frames.size
      rw [first.size]
    rw [second.names, first.names, has, or_assoc, and_or_left]
  nodup := second.nodup ∘ first.nodup

/-- Names that are gained in the sense of runs, where no frame is added. -/
theorem Grows.gains {gained : FrameId → List String} (grows : Grows gained m m')
    (size : m'.frames.size = m.frames.size) : Gains (fun scope x => x ∈ gained scope) m m' where
  size := size
  outer := by
    intro scope
    by_cases exist : scope < m.frames.size
    · exact grows.outer scope exist
    · have absent := Nat.le_of_not_lt exist
      unfold Machine.outer
      rw [Array.getElem?_eq_none absent, Array.getElem?_eq_none (size ▸ absent)]
  names := by
    intro scope x
    by_cases exist : scope < m.frames.size
    · rw [grows.names scope exist, List.mem_append, or_comm]
      exact or_congr_right (iff_and_self.mpr fun _ => exist)
    · have absent := Nat.le_of_not_lt exist
      unfold namesIn
      rw [Array.getElem?_eq_none absent, Array.getElem?_eq_none (size ▸ absent)]
      exact (or_iff_left fun new => exist new.1).symm
  nodup := grows.nodup size

/-- A frame that does not exist binds nothing. -/
theorem bind_of_absent {scope : Scope} {x : String} {v : Value} (absent : m.frames.size ≤ scope) :
    m.bind scope x v = m := by
  have frames : m.frames.modify scope (·.insert x v) = m.frames := by
    refine Array.ext_getElem? fun frame => ?_
    rw [Array.getElem?_modify]
    split
    · next own => rw [← own, Array.getElem?_eq_none absent, Option.map_none]
    · rfl
  rw [bind, frames]

/-- What a single change does to the names of all frames. -/
theorem gains_change (m : Machine) (c : Change) :
    Gains (fun scope x => c.definition? = some (scope, x)) m (m.change c) := by
  cases c with
  | define scope x v =>
      have defined := Eval.define_eq scope x v m
      by_cases bound : m.bindsIn scope x = true
      · have same : m.change (.define scope x v) = m := by
          rw [change, Change.ask, defined, if_pos bound]
        rw [same]
        refine .refl fun _ _ _ new => ?_
        cases new
        exact bindsIn_iff.mp bound
      · have changed : m.change (.define scope x v) = m.bind scope x v := by
          rw [change, Change.ask, defined, if_neg bound]
        rw [changed]
        -- A scope whose frame does not exist has no names to add to.
        by_cases exist : scope < m.frames.size
        · have grows := grows_bind v exist (mt bindsIn_iff.mpr bound)
          refine (grows.gains (Array.size_modify ..)).congr fun frame y => ?_
          by_cases own : frame = scope
          · rw [own, onlyIn_self, List.mem_singleton]
            simp [Change.definition?, eq_comm]
          · rw [onlyIn_of_ne own]
            simp [Change.definition?, Ne.symm own]
        · rw [bind_of_absent (Nat.le_of_not_lt exist)]
          refine .refl fun _ _ has new => ?_
          cases new
          exact absurd has exist
  | assign scope x v =>
      cases found : m.resolve? scope x with
      | none =>
          have same : m.change (.assign scope x v) = m := by
            rw [change, Change.ask, Eval.assign, found]
          rw [same]
          refine .refl fun _ _ _ new => ?_
          cases new
      | some frame =>
          have changed : m.change (.assign scope x v) = m.rebind frame x v := by
            rw [change, Change.ask, Eval.assign, found]
          rw [changed]
          refine ((grows_rebind m frame x v).gains (Array.size_modify ..)).congr fun _ _ => ?_
          simp [nowhere, Change.definition?]

/-- What some changes do to the names of all frames. Their order does not matter to it. -/
theorem gains_changeAll (m : Machine) (changes : List Change) :
    Gains (fun scope x => (scope, x) ∈ changes.filterMap Change.definition?) m
      (m.changeAll changes) := by
  induction changes generalizing m with
  | nil =>
      refine .refl fun _ _ _ member => ?_
      cases member
  | cons c changes ih =>
      refine ((gains_change m c).trans (ih (m.change c))).congr fun scope x => ?_
      cases c with
      | define t y v => simp [Change.definition?, eq_comm]
      | assign t y v => simp [Change.definition?]

end Changes
end Machine

/-- For every use of a machine, the text of a scope gives the number of frames around it and, in
ascending order of their bytes and each of them once, the names that its own frame binds, and it
cannot be read in any other way. So two scopes have the same text if and only if they lie at the
same depth and their frames bind the same names. Changes that define the same names in the same
scopes, in whatever order and with whatever assignments among them, give all scopes the same
texts. -/
theorem scope_text_canonical {h : Host} (reached : Host.Reaches {} h) :
    (∀ scope, ∃ path names, h.machine.Walk scope path ∧ Text.Ascending names ∧
      (∀ x, x ∈ names ↔ h.machine.bindsIn scope x = true) ∧
      ∀ depth names', h.machine.inspectScope scope = scopeText depth names' ↔
        depth + 1 = path.length ∧ names' = names) ∧
    (∀ h', Host.Reaches {} h' → ∀ scope scope',
      h.machine.inspectScope scope = h'.machine.inspectScope scope' ↔
        h.machine.depth scope = h'.machine.depth scope' ∧
        ∀ x, h.machine.bindsIn scope x = h'.machine.bindsIn scope' x) ∧
    (∀ changes changes' : List Change,
      (∀ definition, definition ∈ changes.filterMap Change.definition? ↔
        definition ∈ changes'.filterMap Change.definition?) →
      ∀ scope, (h.machine.changeAll changes).inspectScope scope
        = (h.machine.changeAll changes').inspectScope scope) := by
  have wellFormed := (Host.Reaches.sound reached Host.sound_empty).wellFormed
  refine ⟨fun scope => ?_, fun h' reached' scope scope' => ?_,
    fun changes changes' same scope => ?_⟩
  · refine ⟨_, _, wellFormed.walk scope, Text.ascending_sorted (wellFormed.names scope), ?_, ?_⟩
    · intro x
      rw [Text.mem_sorted, Machine.bindsIn_iff]
    · intro depth names'
      rw [Machine.inspectScope_eq, scopeText_inj]
      exact and_congr (eq_comm.trans Nat.succ_inj.symm) eq_comm
  · have wellFormed' := (Host.Reaches.sound reached' Host.sound_empty).wellFormed
    rw [Machine.inspectScope_eq_iff (wellFormed.names scope) (wellFormed'.names scope')]
    refine and_congr_right fun _ => forall_congr' fun x => ?_
    rw [← Machine.bindsIn_iff, ← Machine.bindsIn_iff]
    exact Bool.eq_iff_iff.symm
  · have gains := h.machine.gains_changeAll changes
    have gains' := h.machine.gains_changeAll changes'
    refine (Machine.inspectScope_eq_iff (gains.nodup wellFormed.names scope)
      (gains'.nodup wellFormed.names scope)).mpr ⟨?_, fun x => ?_⟩
    · rw [Machine.depth, Machine.depth, gains.outer, gains'.outer]
    · rw [gains.names, gains'.names, same]

/-- A host that has made an outermost scope. -/
def singleScope : Host := ⟨(Machine.newScope {}).2, [.frame 0]⟩

/-- Definitions of two names, with an assignment to the first one between them. -/
def reassigned : List Change :=
  [.define 0 "\u03c0" (.int 1), .assign 0 "\u03c0" .void, .define 0 "tau" (.int 2)]

/-- Definitions of the same names the other way round, and one more, which is refused. -/
def redefined : List Change :=
  [.define 0 "tau" .void, .define 0 "\u03c0" .void, .define 0 "tau" (.int 3)]

theorem singleScope_text :
    Host.Reaches {} singleScope ∧
      (∀ definition, definition ∈ reassigned.filterMap Change.definition? ↔
        definition ∈ redefined.filterMap Change.definition?) ∧
      (singleScope.machine.changeAll reassigned).inspectScope 0
        = scopeText 0 ["tau", "\u03c0"] ∧
      (singleScope.machine.changeAll redefined).inspectScope 0
        = scopeText 0 ["tau", "\u03c0"] := by
  have reached : Host.Reaches {} singleScope := .single (.operation (.newScope {}))
  have same : ∀ definition, definition ∈ reassigned.filterMap Change.definition? ↔
      definition ∈ redefined.filterMap Change.definition? := by
    intro definition
    have first : reassigned.filterMap Change.definition? = [(0, "\u03c0"), (0, "tau")] := rfl
    have second : redefined.filterMap Change.definition?
        = [(0, "tau"), (0, "\u03c0"), (0, "tau")] := rfl
    rw [first, second, List.mem_cons (a := definition) (b := (0, "tau"))]
    refine ⟨.inr, fun either => either.elim (fun last => ?_) id⟩
    rw [last]
    exact List.mem_cons_of_mem _ List.mem_cons_self
  obtain ⟨_, _, changed⟩ := scope_text_canonical reached
  have text : (singleScope.machine.changeAll reassigned).inspectScope 0
      = scopeText 0 ["tau", "\u03c0"] := by
    have names : (singleScope.machine.changeAll reassigned).namesIn 0 = ["tau", "\u03c0"] := by
      with_unfolding_all rfl
    have order : Text.sorted ["tau", "\u03c0"] = ["tau", "\u03c0"] :=
      List.mergeSort_of_pairwise (List.pairwise_pair.mpr (by with_unfolding_all rfl))
    rw [Machine.inspectScope_eq, names, order]
    rfl
  exact ⟨reached, same, text, (changed _ _ same 0).symm.trans text⟩

end Bramble
