import Bramble.Proofs.Eval.Names
import Bramble.Proofs.Eval.Prelude

/-!
# The prelude is conservative

The scopes around a program make no difference to it as long as it does not use the names that are
bound there. It may declare such a name, since a declaration only looks at its own frame. So a
program that uses no name of the prelude does the same with the prelude and without it
(`prelude_conservative`).

The two runs do not have the same machine. Their frames and functions have different numbers, and
the frames of one run stand inside further ones. What the two runs make goes together one by one,
in the order in which it is made, and this is the relation between their machines: frames that go
together bind the same names to values that go together, and functions that go together have the
same code. A name that one run finds in no frame of its own is searched for in the frames around
as well, and not found there either.
-/

set_option autoImplicit false

namespace Bramble

/-! ## Objects made in step -/

/-- Numbers of objects that were made by two runs as their `k`-th ones, for a `k` below `n`. The
first one of each run has the number `a` or `a'`. -/
def InStep (a a' n i i' : Nat) : Prop := ∃ k < n, i = a + k ∧ i' = a' + k

/-- Of two arrays that had `a` and `a'` objects once, the `n` objects that each has gained since
then are related, one by one. -/
structure Gained {α : Type} (R : α → α → Prop) (a a' n : Nat) (xs xs' : Array α) : Prop where
  size : xs.size = a + n
  size' : xs'.size = a' + n
  each : ∀ i i', InStep a a' n i i' → ∃ x x', xs[i]? = some x ∧ xs'[i']? = some x' ∧ R x x'

namespace InStep

variable {a a' n i i' j j' : Nat}

theorem mono {n' : Nat} (more : n ≤ n') (same : InStep a a' n i i') : InStep a a' n' i i' := by
  obtain ⟨k, lt, first, second⟩ := same
  exact ⟨k, Nat.lt_of_lt_of_le lt more, first, second⟩

theorem eq_iff (same : InStep a a' n i i') (other : InStep a a' n j j') : i = j ↔ i' = j' := by
  obtain ⟨k, _, rfl, rfl⟩ := same
  obtain ⟨l, _, rfl, rfl⟩ := other
  omega

theorem newest (a a' n : Nat) : InStep a a' (n + 1) (a + n) (a' + n) :=
  ⟨n, Nat.lt_succ_self n, rfl, rfl⟩

/-- The newest objects go together, and otherwise those that did before. -/
theorem cases_succ (same : InStep a a' (n + 1) i i') :
    InStep a a' n i i' ∨ i = a + n ∧ i' = a' + n := by
  obtain ⟨k, lt, first, second⟩ := same
  rcases Nat.lt_succ_iff_lt_or_eq.mp lt with before | rfl
  · exact .inl ⟨k, before, first, second⟩
  · exact .inr ⟨first, second⟩

end InStep

namespace Gained

variable {α : Type} {R Q : α → α → Prop} {a a' n i i' : Nat} {xs xs' : Array α}

theorem none (xs xs' : Array α) : Gained R xs.size xs'.size 0 xs xs' := by
  refine ⟨rfl, rfl, fun i i' same => ?_⟩
  obtain ⟨k, lt, _⟩ := same
  exact absurd lt (Nat.not_lt_zero k)

theorem imp (weaker : ∀ x x', R x x' → Q x x') (gained : Gained R a a' n xs xs') :
    Gained Q a a' n xs xs' := by
  refine ⟨gained.size, gained.size', fun i i' same => ?_⟩
  obtain ⟨x, x', found, found', related⟩ := gained.each i i' same
  exact ⟨x, x', found, found', weaker x x' related⟩

theorem push (gained : Gained R a a' n xs xs') {x x' : α} (related : R x x') :
    Gained R a a' (n + 1) (xs.push x) (xs'.push x') := by
  refine ⟨?_, ?_, fun i i' same => ?_⟩
  · rw [Array.size_push, gained.size, Nat.add_assoc]
  · rw [Array.size_push, gained.size', Nat.add_assoc]
  · rcases same.cases_succ with before | ⟨rfl, rfl⟩
    · obtain ⟨y, y', found, found', related'⟩ := gained.each i i' before
      obtain ⟨k, lt, rfl, rfl⟩ := before
      refine ⟨y, y', ?_, ?_, related'⟩
      · rw [Array.getElem?_push, gained.size, if_neg (by omega), found]
      · rw [Array.getElem?_push, gained.size', if_neg (by omega), found']
    · refine ⟨x, x', ?_, ?_, related⟩
      · rw [Array.getElem?_push, gained.size, if_pos rfl]
      · rw [Array.getElem?_push, gained.size', if_pos rfl]

theorem modify (gained : Gained R a a' n xs xs') (same : InStep a a' n i i') {f f' : α → α}
    (keeps : ∀ x x', R x x' → R (f x) (f' x')) :
    Gained R a a' n (xs.modify i f) (xs'.modify i' f') := by
  refine ⟨by rw [Array.size_modify, gained.size], by rw [Array.size_modify, gained.size'], ?_⟩
  intro j j' other
  obtain ⟨x, x', found, found', related⟩ := gained.each j j' other
  rw [Array.getElem?_modify, Array.getElem?_modify, found, found']
  by_cases equal : i = j
  · rw [if_pos equal, if_pos ((same.eq_iff other).mp equal)]
    exact ⟨f x, f' x', rfl, rfl, keeps x x' related⟩
  · rw [if_neg equal, if_neg (fun equal' => equal ((same.eq_iff other).mpr equal'))]
    exact ⟨x, x', rfl, rfl, related⟩

end Gained

/-! ## Frames of two runs -/

/-- Frames of two runs that bind the same names, in the same order, to values that go together.
Around the first of them stand the frames of `beyond` in addition. -/
structure Frame.Like (beyond : List FrameId) (scopes : Scope → Scope → Prop)
    (functions : FunctionId → FunctionId → Prop) (frame frame' : Frame) : Prop where
  outer : ∃ near, frame.outer = near ++ beyond ∧ List.Forall₂ scopes near frame'.outer
  bindings : List.Forall₂ (fun binding binding' =>
    binding.1 = binding'.1 ∧ binding.2.Like functions binding'.2) frame.bindings frame'.bindings

namespace Frame.Like

variable {beyond : List FrameId} {scopes : Scope → Scope → Prop}
  {functions : FunctionId → FunctionId → Prop} {frame frame' : Frame}

theorem mono {moreScopes : Scope → Scope → Prop} {moreFunctions : FunctionId → FunctionId → Prop}
    (known : ∀ {s s'}, scopes s s' → moreScopes s s')
    (known' : ∀ {a a'}, functions a a' → moreFunctions a a')
    (like : frame.Like beyond scopes functions frame') :
    frame.Like beyond moreScopes moreFunctions frame' := by
  obtain ⟨near, outer, together⟩ := like.outer
  refine ⟨⟨near, outer, together.imp fun _ _ => known⟩, ?_⟩
  exact like.bindings.imp fun _ _ both => ⟨both.1, both.2.mono known'⟩

theorem names_eq (like : frame.Like beyond scopes functions frame') :
    frame.names = frame'.names := by
  have same := like.bindings
  unfold names
  generalize frame.bindings = bindings, frame'.bindings = bindings' at same ⊢
  induction same with
  | nil => rfl
  | cons first _ ih => rw [List.map_cons, List.map_cons, first.1, ih]

theorem get?_rel (like : frame.Like beyond scopes functions frame') (x : String) :
    Option.Rel (Value.Like functions) (frame.get? x) (frame'.get? x) := by
  have same := like.bindings
  unfold get?
  generalize frame.bindings = bindings, frame'.bindings = bindings' at same ⊢
  induction same with
  | nil => exact .none
  | cons first _ ih =>
      rw [lookup_cons_eq, lookup_cons_eq, first.1]
      split
      · exact .some first.2
      · exact ih

variable {v v' : Value}

theorem insert (like : frame.Like beyond scopes functions frame') (x : String)
    (value : v.Like functions v') :
    (frame.insert x v).Like beyond scopes functions (frame'.insert x v') :=
  ⟨like.outer, .cons ⟨rfl, value⟩ like.bindings⟩

theorem replace (like : frame.Like beyond scopes functions frame') (x : String)
    (value : v.Like functions v') :
    (frame.replace x v).Like beyond scopes functions (frame'.replace x v') := by
  refine ⟨like.outer, ?_⟩
  rw [Frame.replace, Frame.replace, List.forall₂_map_left_iff, List.forall₂_map_right_iff]
  refine like.bindings.imp fun binding binding' both => ?_
  rw [both.1]
  split
  · exact ⟨rfl, value⟩
  · exact both

end Frame.Like

/-! ## Machines of two runs -/

/-- Two machines on which a program can be run: on `inside` in a new scope inside `around`, on
`alone` in a new outermost scope. -/
structure Surroundings where
  inside : Machine
  around : Scope
  exist : ∀ frame ∈ inside.chain around, frame < inside.frames.size
  alone : Machine

/-- How many frames and functions two runs have made so far. -/
structure Surroundings.Made where
  scopes : Nat
  functions : Nat

namespace Surroundings

variable (S : Surroundings) (w : Made)

/-- Scopes of the program in the two runs. -/
def scopes : Scope → Scope → Prop :=
  InStep S.inside.frames.size S.alone.frames.size w.scopes

/-- Functions of the program in the two runs. -/
def functions : FunctionId → FunctionId → Prop :=
  InStep S.inside.functions.size S.alone.functions.size w.functions

/-- The frames that are searched in one of the runs only. -/
def beyond : List FrameId := S.inside.chain S.around

/-- Programs may use names that are not bound around them, and come to no function but their
own. -/
def vocabulary : Vocabulary where
  names := fun x => ∀ frame ∈ S.beyond, S.inside.bindsIn frame x = false
  builtins := fun _ => False

/-- Machines of two runs of a program that has made as much as `w` says. What the program has made
goes together, and all else is as it was. -/
structure Agree (m m' : Machine) : Prop where
  frames : Gained (Frame.Like S.beyond (S.scopes w) (S.functions w)) S.inside.frames.size
    S.alone.frames.size w.scopes m.frames m'.frames
  functions : Gained (fun f f' => f.Within S.vocabulary ∧ f.Like (S.scopes w) f')
    S.inside.functions.size S.alone.functions.size w.functions m.functions m'.functions
  older : ∀ frame < S.inside.frames.size, m.frames[frame]? = S.inside.frames[frame]?
  output : m.output = S.inside.output
  output' : m'.output = S.alone.output

/-- Later in both runs. -/
structure Made.Later (w w' : Made) : Prop where
  scopes : w.scopes ≤ w'.scopes
  functions : w.functions ≤ w'.functions

theorem Made.Later.refl (w : Made) : w.Later w := ⟨Nat.le_refl _, Nat.le_refl _⟩

theorem Made.Later.trans {w w' w'' : Made} (first : w.Later w') (second : w'.Later w'') :
    w.Later w'' :=
  ⟨Nat.le_trans first.scopes second.scopes, Nat.le_trans first.functions second.functions⟩

/-- One more scope in both runs. -/
def Made.addScope (w : Made) : Made := ⟨w.scopes + 1, w.functions⟩

/-- One more function in both runs. -/
def Made.addFunction (w : Made) : Made := ⟨w.scopes, w.functions + 1⟩

theorem Made.Later.addScope (w : Made) : w.Later w.addScope := ⟨Nat.le_succ _, Nat.le_refl _⟩

theorem Made.Later.addFunction (w : Made) : w.Later w.addFunction :=
  ⟨Nat.le_refl _, Nat.le_succ _⟩

variable {S w} {w' : Made} {m m' : Machine} {s s' : Scope} {x : String} {v v' : Value}

theorem scopes_later (later : w.Later w') (same : S.scopes w s s') : S.scopes w' s s' :=
  same.mono later.scopes

theorem functions_later {a a' : FunctionId} (later : w.Later w') (same : S.functions w a a') :
    S.functions w' a a' :=
  same.mono later.functions

theorem frame_later {frame frame' : Frame} (later : w.Later w')
    (like : frame.Like S.beyond (S.scopes w) (S.functions w) frame') :
    frame.Like S.beyond (S.scopes w') (S.functions w') frame' :=
  like.mono (scopes_later later) (functions_later later)

theorem callable_later {f f' : Callable} (later : w.Later w')
    (like : f.Within S.vocabulary ∧ f.Like (S.scopes w) f') :
    f.Within S.vocabulary ∧ f.Like (S.scopes w') f' :=
  ⟨like.1, like.2.mono (scopes_later later)⟩

namespace Agree

/-! ### Names -/

theorem namesIn_eq (agree : S.Agree w m m') (same : S.scopes w s s') :
    m.namesIn s = m'.namesIn s' := by
  obtain ⟨frame, frame', found, found', like⟩ := agree.frames.each s s' same
  rw [Machine.namesIn, Machine.namesIn, found, found']
  exact like.names_eq

theorem getIn?_rel (agree : S.Agree w m m') (same : S.scopes w s s') (x : String) :
    Option.Rel (Value.Like (S.functions w)) (m.getIn? s x) (m'.getIn? s' x) := by
  obtain ⟨frame, frame', found, found', like⟩ := agree.frames.each s s' same
  rw [Machine.getIn?, Machine.getIn?, found, found']
  exact like.get?_rel x

theorem bindsIn_eq (agree : S.Agree w m m') (same : S.scopes w s s') (x : String) :
    m.bindsIn s x = m'.bindsIn s' x := by
  have related := agree.getIn?_rel same x
  unfold Machine.bindsIn
  generalize m.getIn? s x = found, m'.getIn? s' x = found' at related ⊢
  cases related <;> rfl

/-- The two runs search their own frames in the same order. One of them goes on from there. -/
theorem exists_chain (agree : S.Agree w m m') (same : S.scopes w s s') :
    ∃ near, m.chain s = near ++ S.beyond ∧ List.Forall₂ (S.scopes w) near (m'.chain s') := by
  obtain ⟨frame, frame', found, found', like⟩ := agree.frames.each s s' same
  obtain ⟨near, outer, together⟩ := like.outer
  refine ⟨s :: near, ?_, ?_⟩
  · rw [Machine.chain, Machine.outer, found, List.cons_append, ← outer]
    rfl
  · rw [Machine.chain, Machine.outer, found']
    exact .cons same together

/-- No name that the program uses is found around it. -/
theorem getIn?_beyond (agree : S.Agree w m m') (known : S.vocabulary.names x) {frame : FrameId}
    (member : frame ∈ S.beyond) : m.getIn? frame x = none := by
  have unbound : S.inside.bindsIn frame x = false := known frame member
  rw [Machine.bindsIn, Option.isSome_eq_false_iff, Option.isNone_iff_eq_none] at unbound
  rw [Machine.getIn?, agree.older frame (S.exist frame member)]
  exact unbound

theorem lookup?_rel (agree : S.Agree w m m') (known : S.vocabulary.names x)
    (same : S.scopes w s s') :
    Option.Rel (Value.Like (S.functions w)) (m.lookup? s x) (m'.lookup? s' x) := by
  obtain ⟨near, chain, together⟩ := agree.exists_chain same
  have missing : S.beyond.findSome? (fun frame => m.getIn? frame x) = none :=
    List.findSome?_eq_none_iff.mpr fun _ => agree.getIn?_beyond known
  rw [Machine.lookup?, chain, List.findSome?_append, missing, Option.or_none, Machine.lookup?]
  clear chain
  generalize m'.chain s' = near' at together ⊢
  induction together with
  | nil => exact .none
  | cons first _ ih =>
      have related := agree.getIn?_rel first x
      rw [List.findSome?_cons, List.findSome?_cons]
      generalize m.getIn? _ x = found, m'.getIn? _ x = found' at related ⊢
      cases related with
      | none => exact ih
      | some like => exact .some like

theorem resolve?_rel (agree : S.Agree w m m') (known : S.vocabulary.names x)
    (same : S.scopes w s s') :
    Option.Rel (S.scopes w) (m.resolve? s x) (m'.resolve? s' x) := by
  obtain ⟨near, chain, together⟩ := agree.exists_chain same
  have missing : S.beyond.find? (fun frame => m.bindsIn frame x) = none := by
    refine List.find?_eq_none.mpr fun frame member => ?_
    simp [Machine.bindsIn, agree.getIn?_beyond known member]
  rw [Machine.resolve?, chain, List.find?_append, missing, Option.or_none, Machine.resolve?]
  clear chain
  generalize m'.chain s' = near' at together ⊢
  induction together with
  | nil => exact .none
  | cons first _ ih =>
      rw [List.find?_cons, List.find?_cons, agree.bindsIn_eq first x]
      split
      · exact .some first
      · exact ih

/-! ### Changes -/

/-- A change to frames of the program that go together. -/
theorem modify (agree : S.Agree w m m') (same : S.scopes w s s') {f f' : Frame → Frame}
    (keeps : ∀ frame frame', frame.Like S.beyond (S.scopes w) (S.functions w) frame' →
      (f frame).Like S.beyond (S.scopes w) (S.functions w) (f' frame')) :
    S.Agree w { m with frames := m.frames.modify s f }
      { m' with frames := m'.frames.modify s' f' } where
  frames := agree.frames.modify same keeps
  functions := agree.functions
  older := by
    intro frame exist
    obtain ⟨k, _, rfl, _⟩ := same
    rw [Array.getElem?_modify, if_neg (by omega), agree.older frame exist]
  output := agree.output
  output' := agree.output'

theorem bind (agree : S.Agree w m m') (same : S.scopes w s s') (x : String)
    (value : v.Like (S.functions w) v') : S.Agree w (m.bind s x v) (m'.bind s' x v') :=
  agree.modify same fun _ _ like => like.insert x value

theorem rebind (agree : S.Agree w m m') (same : S.scopes w s s') (x : String)
    (value : v.Like (S.functions w) v') : S.Agree w (m.rebind s x v) (m'.rebind s' x v') :=
  agree.modify same fun _ _ like => like.replace x value

theorem addFrame (agree : S.Agree w m m') {near outer : List FrameId}
    (together : List.Forall₂ (S.scopes w) near outer) :
    S.scopes w.addScope (m.addFrame (near ++ S.beyond)).1 (m'.addFrame outer).1 ∧
      S.Agree w.addScope (m.addFrame (near ++ S.beyond)).2 (m'.addFrame outer).2 := by
  have later := Made.Later.addScope w
  refine ⟨?_, ?_, ?_, ?_, agree.output, agree.output'⟩
  · rw [Machine.addFrame, Machine.addFrame, agree.frames.size, agree.frames.size']
    exact .newest _ _ _
  · refine (agree.frames.imp fun _ _ => frame_later later).push ?_
    exact ⟨⟨near, rfl, together.imp fun _ _ => scopes_later later⟩, .nil⟩
  · exact agree.functions.imp fun _ _ => callable_later later
  · intro frame exist
    have size := agree.frames.size
    rw [Machine.addFrame, Array.getElem?_push, if_neg (by omega), agree.older frame exist]

theorem addFunction (agree : S.Agree w m m') {f f' : Callable} (within : f.Within S.vocabulary)
    (like : f.Like (S.scopes w) f') :
    (m.addFunction f).1.Like (S.functions w.addFunction) (m'.addFunction f').1 ∧
      S.Agree w.addFunction (m.addFunction f).2 (m'.addFunction f').2 := by
  have later := Made.Later.addFunction w
  refine ⟨?_, ?_, ?_, agree.older, agree.output, agree.output'⟩
  · rw [Machine.addFunction, Machine.addFunction, agree.functions.size, agree.functions.size']
    exact .function (.newest _ _ _)
  · exact agree.frames.imp fun _ _ => frame_later later
  · exact (agree.functions.imp fun _ _ => callable_later later).push ⟨within, like⟩

end Agree

/-! ## The two runs -/

section Runs

variable {α β : Type}

/-- Endings of two computations that begin where the program has made as much as `w` says. -/
inductive Ends (S : Surroundings) (w : Made) (results : Made → α → β → Prop) :
    EStateM.Result EvalError Machine α → EStateM.Result EvalError Machine β → Prop where
  | ok {w' : Made} {a : α} {b : β} {m m' : Machine} (later : w.Later w')
      (agree : S.Agree w' m m') (result : results w' a b) : Ends S w results (.ok a m) (.ok b m')
  | error {w' : Made} {m m' : Machine} (later : w.Later w') (agree : S.Agree w' m m')
      (e : EvalError) : Ends S w results (.error e m) (.error e m')

variable {results : Made → α → β → Prop} {r : EStateM.Result EvalError Machine α}
  {r' : EStateM.Result EvalError Machine β}

theorem Ends.earlier (later : w.Later w') (ends : Ends S w' results r r') :
    Ends S w results r r' := by
  cases ends with
  | ok later' agree result => exact .ok (later.trans later') agree result
  | error later' agree e => exact .error (later.trans later') agree e

/-- The machines that are left agree, also after an error. -/
theorem Ends.exists_agree {p : Eval α} {p' : Eval β} (ends : Ends S w results (p m) (p' m')) :
    ∃ w', w.Later w' ∧ S.Agree w' (p.after m) (p'.after m') := by
  generalize ending : p m = r, ending' : p' m' = r' at ends
  cases ends with
  | ok later agree _ =>
      rw [Eval.after_ok ending, Eval.after_ok ending']
      exact ⟨_, later, agree⟩
  | error later agree _ =>
      rw [Eval.after_error ending, Eval.after_error ending']
      exact ⟨_, later, agree⟩

/-- Computations of the two runs, on machines that agree. -/
def Follows (S : Surroundings) (w : Made) (results : Made → α → β → Prop) (p : Eval α)
    (p' : Eval β) : Prop :=
  ∀ m m', S.Agree w m m' → Ends S w results (p m) (p' m')

end Runs

variable (S)

/-- The congruence of running a program with and without something around it. -/
def following : Eval.CongruenceOn S.vocabulary where
  World := Made
  later := Made.Later
  scopes := S.scopes
  functions := S.functions
  related := S.Follows
  scopes_later := scopes_later
  functions_later := functions_later
  functions_oneToOne := InStep.eq_iff
  related_pure := fun result _ _ agree => .ok (.refl _) agree result
  related_bind := by
    intro α β γ δ w results more p p' f f' first second m m' agree
    have ends := first m m' agree
    generalize ending : p m = r, ending' : p' m' = r' at ends
    cases ends with
    | ok later agree' result =>
        rw [bind_ok ending, bind_ok ending']
        exact (second _ later _ _ result _ _ agree').earlier later
    | error later agree' e =>
        rw [bind_error ending, bind_error ending']
        exact .error later agree' e
  related_throw := fun _ _ _ agree => .error (.refl _) agree _
  related_requireFresh := by
    intro w s s' x same m m' agree
    unfold Eval.requireFresh
    rw [agree.bindsIn_eq same x]
    split
    · exact .error (.refl w) agree _
    · exact .ok (.refl w) agree trivial
  related_define := by
    intro w s s' x v v' same like m m' agree
    rw [Eval.define_eq, Eval.define_eq, agree.bindsIn_eq same x]
    split
    · exact .error (.refl w) agree _
    · exact .ok (.refl w) (agree.bind same x like) trivial
  related_child := by
    intro w s s' same m m' agree
    obtain ⟨near, chain, together⟩ := agree.exists_chain same
    obtain ⟨newest, agree'⟩ := agree.addFrame together
    rw [Eval.child_eq, Eval.child_eq, Machine.child, chain]
    exact .ok (.addScope w) agree' newest
  related_lookup := by
    intro w s s' x known same m m' agree
    have related := agree.lookup?_rel known same
    unfold Eval.lookup
    generalize m.lookup? s x = found, m'.lookup? s' x = found' at related ⊢
    cases related with
    | none => exact .error (.refl w) agree _
    | some like => exact .ok (.refl w) agree like
  related_assign := by
    intro w s s' x v v' known same like m m' agree
    have related := agree.resolve?_rel known same
    unfold Eval.assign
    generalize m.resolve? s x = found, m'.resolve? s' x = found' at related ⊢
    cases related with
    | none => exact .error (.refl w) agree _
    | some nearest => exact .ok (.refl w) (agree.rebind nearest x like) trivial
  related_newFunction := by
    intro w f f' within like m m' agree
    obtain ⟨newest, agree'⟩ := agree.addFunction within like
    exact .ok (.addFunction w) agree' newest
  related_callable := by
    intro w v v' like m m' agree
    cases like with
    | @function id id' same =>
        obtain ⟨f, f', found, found', both⟩ := agree.functions.each id id' same
        have ends : Eval.callable (.function id) m = .ok f m := by simp [Eval.callable, found]
        have ends' : Eval.callable (.function id') m' = .ok f' m' := by simp [Eval.callable, found']
        rw [ends, ends']
        exact .ok (.refl w) agree both
    | _ => exact .error (.refl w) agree _
  related_builtin := fun known => known.elim

theorem agree_start : S.Agree ⟨0, 0⟩ S.inside S.alone where
  frames := .none _ _
  functions := .none _ _
  older := fun _ _ => rfl
  output := rfl
  output' := rfl

/-- A program that uses no name from around it ends in both runs, and so that what it has made
agrees. Its scope is the first that it has made. -/
theorem ends_eval (limit : Nat) {program : Program}
    (within : ∀ s ∈ program, s.Within S.vocabulary) :
    let start := S.inside.child S.around
    let start' := S.alone.newScope
    S.scopes ⟨1, 0⟩ start.1 start'.1 ∧
      Ends S ⟨1, 0⟩ (fun w => Value.Like (S.functions w)) (program.eval limit start.1 start.2)
        (program.eval limit start'.1 start'.2) := by
  intro start start'
  obtain ⟨scope, agree⟩ := S.agree_start.addFrame .nil
  have calls := S.following.relatesCalls_callLeft limit limit
  exact ⟨scope, Eval.CongruenceOn.related_program calls scope within _ _ agree⟩

end Surroundings

/-! ## The prelude around a program -/

namespace Machine

/-- A machine with a new frame for the prelude. -/
def withPrelude (m : Machine) : Machine :=
  Builtin.all.foldl (fun n b => n.bindBuiltin m.newScope.1 b) m.newScope.2

/-- Functions of the prelude are bound to their own names, and nothing else changes about the frame
that they are bound in. -/
theorem foldl_bindBuiltin {m : Machine} {frame : FrameId} (has : m.Has (.frame frame))
    (bs : List Builtin) :
    let n := bs.foldl (fun n b => n.bindBuiltin frame b) m
    n.Has (.frame frame) ∧ n.outer frame = m.outer frame ∧ n.output = m.output ∧
      ∀ x, (∀ b : Builtin, x ≠ b.name) → n.bindsIn frame x = m.bindsIn frame x := by
  induction bs generalizing m with
  | nil => exact ⟨has, rfl, rfl, fun _ _ => rfl⟩
  | cons b bs ih =>
      obtain ⟨has', outer, output, binds⟩ := ih (within_bindBuiltin b _ has)
      refine ⟨has', outer.trans (outer_bind _ _ _ _ _), output, fun x other => ?_⟩
      rw [List.foldl_cons, binds x other, bindsIn_bindBuiltin_of_ne has (other b)]

/-- What is around a program is the frame of the prelude alone. -/
theorem chain_withPrelude (m : Machine) : m.withPrelude.chain m.newScope.1 = [m.newScope.1] := by
  have kept := (foldl_bindBuiltin (m.has_addFrame []) Builtin.all).2.1
  have outermost : m.newScope.2.outer m.newScope.1 = [] := by
    rw [newScope, outer_addFrame]
    exact if_pos rfl
  exact congrArg (m.newScope.1 :: ·) (kept.trans outermost)

theorem bindsIn_withPrelude (m : Machine) {x : String} (other : ∀ b : Builtin, x ≠ b.name) :
    m.withPrelude.bindsIn m.newScope.1 x = false := by
  have binds := (foldl_bindBuiltin (m.has_addFrame []) Builtin.all).2.2.2 x other
  exact binds.trans (m.bindsIn_newScope x)

end Machine

/-- The prelude around the program on one machine, and nothing on the other one. -/
def Surroundings.prelude (m m' : Machine) : Surroundings where
  inside := m.withPrelude
  around := m.newScope.1
  exist := by
    intro frame member
    rw [m.chain_withPrelude, List.mem_singleton] at member
    subst member
    exact (Machine.foldl_bindBuiltin (m.has_addFrame []) Builtin.all).1
  alone := m'

/-- A program that uses no name of the prelude is one that uses no name from around it. -/
theorem Surroundings.within_prelude (m m' : Machine) {program : Program}
    (unused : ∀ x ∈ Stmt.usesAll program, ∀ b : Builtin, x ≠ b.name) :
    ∀ s ∈ program, s.Within (prelude m m').vocabulary := by
  refine Stmt.within_all.mp fun x used frame member => ?_
  have own : frame = m.newScope.1 := by
    rwa [beyond, prelude, m.chain_withPrelude, List.mem_singleton] at member
  subst own
  exact m.bindsIn_withPrelude (unused x used)

/-! ## Programs with and without the prelude -/

/-- Closures of two machines that have the same name, parameters and body. -/
def SameCode (m m' : Machine) (f f' : FunctionId) : Prop :=
  ∃ c c' : Closure, m.functions[f]? = some (.closure c) ∧ m'.functions[f']? = some (.closure c') ∧
    c.name = c'.name ∧ c.params = c'.params ∧ c.body = c'.body

/-- Two runs end alike: with the same value or with functions of the same code, or with the same
error. -/
inductive EndAlike : EStateM.Result EvalError Machine Value →
    EStateM.Result EvalError Machine Value → Prop where
  | ok {v v' : Value} {m m' : Machine} (same : v.Like (SameCode m m') v') :
      EndAlike (.ok v m) (.ok v' m')
  | error {m m' : Machine} (e : EvalError) : EndAlike (.error e m) (.error e m')

/-- Functions that a program has made in step have the same code. -/
theorem Surroundings.Agree.sameCode {S : Surroundings} {w : Made} {m m' : Machine}
    (agree : S.Agree w m m') {f f' : FunctionId} (same : S.functions w f f') :
    SameCode m m' f f' := by
  obtain ⟨c, c', found, found', within, like⟩ := agree.functions.each f f' same
  cases like with
  | closure name params body _ => exact ⟨_, _, found, found', rfl, rfl, rfl⟩
  | builtin b => exact within.elim

theorem Surroundings.Ends.endAlike {S : Surroundings} {w : Made}
    {r r' : EStateM.Result EvalError Machine Value}
    (ends : Ends S w (fun w => Value.Like (S.functions w)) r r') : EndAlike r r' := by
  cases ends with
  | ok _ agree like => exact .ok (like.mono agree.sameCode)
  | error _ _ e => exact .error e

/-- The prelude is conservative. Of a program that neither looks up nor assigns to one of its names,
a run with the prelude around it and a run in an outermost scope end alike, under every limit and on
all machines. They leave the same names in the scope of the program, and neither of them prints. -/
theorem prelude_conservative (limit : Nat) (m m' : Machine) (program : Program)
    (unused : ∀ x ∈ Stmt.usesAll program, ∀ b : Builtin, x ≠ b.name) :
    let run := program.eval limit m.programScope.1
    let bare := program.eval limit m'.newScope.1
    EndAlike (run m.programScope.2) (bare m'.newScope.2) ∧
      (run.after m.programScope.2).namesIn m.programScope.1
        = (bare.after m'.newScope.2).namesIn m'.newScope.1 ∧
      (run.after m.programScope.2).output = m.output ∧
      (bare.after m'.newScope.2).output = m'.output := by
  intro run bare
  have within := Surroundings.within_prelude m m' unused
  obtain ⟨scope, ends⟩ := (Surroundings.prelude m m').ends_eval limit within
  obtain ⟨w, later, agree⟩ := Surroundings.Ends.exists_agree ends
  have silent : m.withPrelude.output = m.output :=
    (Machine.foldl_bindBuiltin (m.has_addFrame []) Builtin.all).2.2.1
  exact ⟨ends.endAlike, agree.namesIn_eq (Surroundings.scopes_later later scope),
    agree.output.trans silent, agree.output'⟩

/-- A program that declares names of the prelude, as a variable, a parameter and a function, and
uses none of them. Its value is one of its functions. -/
def preludeNamesDeclared : Program :=
  [.letDecl "print" (.literal (.int 1)),
    .funDecl "f" ["println"] [.block [.funDecl "assert" [] [], .ret (.name "f")]],
    .expr (.call (.name "f") [.literal (.int 2)])]

theorem preludeNamesDeclared_conservative :
    (∀ x ∈ Stmt.usesAll preludeNamesDeclared, ∀ b : Builtin, x ≠ b.name) ∧
      ∃ n n', preludeNamesDeclared.eval 1 (Machine.programScope {}).1 (Machine.programScope {}).2
          = .ok (.function 4) n ∧
        preludeNamesDeclared.eval 1 (Machine.newScope {}).1 (Machine.newScope {}).2
          = .ok (.function 0) n' ∧
        SameCode n n' 4 0 ∧ n.namesIn 1 = ["f", "print"] ∧ n'.namesIn 0 = ["f", "print"] := by
  have unused : ∀ x ∈ Stmt.usesAll preludeNamesDeclared, ∀ b : Builtin, x ≠ b.name := by
    intro x used b
    have own : x = "f" := by
      simpa [preludeNamesDeclared, Stmt.usesAll, Stmt.uses, Expr.uses, Expr.usesAll] using used
    subst own
    cases b <;> decide
  obtain ⟨ends, names, _⟩ := prelude_conservative 1 {} {} preludeNamesDeclared unused
  have inside : preludeNamesDeclared.eval 1 (Machine.programScope {}).1 (Machine.programScope {}).2
      = .ok (.function 4) ((preludeNamesDeclared.eval 1 (Machine.programScope {}).1).after
        (Machine.programScope {}).2) := by
    with_unfolding_all rfl
  have alone : preludeNamesDeclared.eval 1 (Machine.newScope {}).1 (Machine.newScope {}).2
      = .ok (.function 0) ((preludeNamesDeclared.eval 1 (Machine.newScope {}).1).after
        (Machine.newScope {}).2) := by
    with_unfolding_all rfl
  have bound : ((preludeNamesDeclared.eval 1 (Machine.newScope {}).1).after
      (Machine.newScope {}).2).namesIn 0 = ["f", "print"] := by
    with_unfolding_all rfl
  rw [inside, alone] at ends
  cases ends with
  | ok same =>
      cases same with
      | function code => exact ⟨unused, _, _, inside, alone, code, names.trans bound, bound⟩

end Bramble
