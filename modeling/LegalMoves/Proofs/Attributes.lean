import LegalMoves.Proofs.FirstGame
import LegalMoves.Rule.Calls

set_option autoImplicit false

namespace LegalMoves

namespace Chain

def preparedFor (games : List Game) (chain : Chain) : Chain :=
  games.foldl (fun chain g => chain.prepared g) chain

def or : Chain → Chain → Chain
  | .absent, other => other
  | .attached id rule, _ => .attached id rule

@[simp] theorem preparedFor_absent (games : List Game) : preparedFor games .absent = .absent := by
  induction games with
  | nil => rfl
  | cons g games ih => exact ih

@[simp] theorem preparedFor_attached (games : List Game) (id : ChainId) (rule : Rule) :
    preparedFor games (.attached id rule) = .attached id (rule.preparedFor games) := by
  induction games generalizing rule with
  | nil => rfl
  | cons g games ih => exact ih _

theorem preparedFor_eq_absent_iff {games : List Game} {chain : Chain} :
    chain.preparedFor games = .absent ↔ chain = .absent := by
  cases chain <;> simp

@[simp] theorem or_absent (chain : Chain) : chain.or .absent = chain := by
  cases chain <;> rfl

theorem or_eq_absent_iff {chain other : Chain} :
    chain.or other = .absent ↔ chain = .absent ∧ other = .absent := by
  cases chain <;> simp [or]

end Chain

namespace Rule

/-- A rule without its own chain and marks. Its parts keep theirs. -/
def bare : Rule → Rule
  | .leaf own _ _ => .leaf own {} .absent
  | .compound kind parts _ _ => .compound kind parts {} .absent
  | .counted id inner => .counted id inner.bare

namespace Call

def isAttach : Call → Bool
  | .attach _ _ => true
  | .markDecision | .markDeferred | .prepare _ | .ask _ => false

def setsAttribute : Call → Bool
  | .attach _ _ | .markDecision | .markDeferred => true
  | .prepare _ | .ask _ => false

def games : Call → List Game
  | .prepare g => [g]
  | .attach _ _ | .markDecision | .markDeferred | .ask _ => []

/-- The marks that a call sets. -/
def marks : Call → Marks
  | .markDecision => { decision := true }
  | .markDeferred => { deferred := true }
  | .attach _ _ | .prepare _ | .ask _ => {}

end Call

/-- The chain of the first call that attaches one, prepared for the games of the calls after it. -/
def firstChain : List Call → Chain
  | [] => .absent
  | .attach id follow :: calls => .attached id (follow.preparedFor (calls.flatMap Call.games))
  | _ :: calls => firstChain calls

/-- Whether no chain was there before some calls and none of them attaches one. -/
def Unchained (rule : Rule) (calls : List Call) : Prop :=
  rule.chain = .absent ∧ ∀ call ∈ calls, call.isAttach = false

/-- What some calls leave of a rule and its attributes. -/
structure Settled (rule : Rule) (calls : List Call) : Prop where
  chain : (rule.after calls).chain =
    (rule.chain.preparedFor (calls.flatMap Call.games)).or (firstChain calls)
  decision : (rule.after calls).marks.decision = true ↔
    rule.marks.decision = true ∨ .markDecision ∈ calls
  deferred : (rule.after calls).marks.deferred = true ↔
    rule.marks.deferred = true ∨ .markDeferred ∈ calls
  bare : (rule.after calls).bare = rule.bare.preparedFor (calls.flatMap Call.games)

/-- A call in a run is refused, and all else in the run is as it would be without the call. -/
structure RefusedAlone (rule : Rule) (calls : List Call) (call : Call) (later : List Call) :
    Prop where
  reply : (rule.replies (calls ++ call :: later))[calls.length]? =
    some (.refused .chainAlreadyAttached)
  others : (rule.replies (calls ++ call :: later)).eraseIdx calls.length =
    rule.replies (calls ++ later)
  after : rule.after (calls ++ call :: later) = rule.after (calls ++ later)
  events : (rule.run (calls ++ call :: later)).events = (rule.run (calls ++ later)).events

variable {rule : Rule}

theorem moves_eq_map_stamp (rule : Rule) (s : Snapshot) :
    rule.moves s = (rule.bare.moves s).map (Move.stamp rule.marks rule.chain) := by
  have hplain : Move.stamp {} .absent = id := funext Move.stamp_plain
  fun_induction bare rule with
  | case1 own marks chain => simp [hplain, Rule.marks, Rule.chain]
  | case2 kind parts marks chain =>
    cases kind with
    | union => simp [moves_union, hplain, Rule.marks, Rule.chain]
    | priority => simp [moves_priority, hplain, Rule.marks, Rule.chain]
  | case3 id inner ih => exact ih

@[simp] theorem bare_withChain (chain : Chain) (rule : Rule) :
    (rule.withChain chain).bare = rule.bare := by
  fun_induction withChain chain rule with
  | case1 => rfl
  | case2 => rfl
  | case3 id inner ih => exact congrArg (Rule.counted id) ih

@[simp] theorem bare_mark (extra : Marks) (rule : Rule) : (rule.mark extra).bare = rule.bare := by
  fun_induction mark extra rule with
  | case1 => rfl
  | case2 => rfl
  | case3 id inner ih => exact congrArg (Rule.counted id) ih

@[simp] theorem bare_prepared (g : Game) (rule : Rule) :
    (rule.prepared g).bare = rule.bare.prepared g := by
  fun_induction bare rule with
  | case1 => rfl
  | case2 kind parts marks chain => simp [bare]
  | case3 id inner ih => exact congrArg (Rule.counted id) ih

@[simp] theorem marks_prepared (g : Game) (rule : Rule) :
    (rule.prepared g).marks = rule.marks := by
  fun_induction bare rule with
  | case1 => rfl
  | case2 kind parts marks chain => simp [Rule.marks]
  | case3 id inner ih => exact ih

theorem preparedFor_append (games later : List Game) (rule : Rule) :
    rule.preparedFor (games ++ later) = (rule.preparedFor games).preparedFor later :=
  List.foldl_append

/-! What one call does. -/

theorem bare_perform (rule : Rule) (call : Call) :
    (rule.perform call).value.2.bare = rule.bare.preparedFor call.games := by
  cases call with
  | attach id follow =>
    by_cases h : rule.chain = .absent
    · rw [perform_attach_of_absent h]
      exact bare_withChain _ rule
    · rw [perform_attach_of_ne_absent h]
      rfl
  | markDecision => exact bare_mark _ rule
  | markDeferred => exact bare_mark _ rule
  | prepare g => exact bare_prepared g rule
  | ask query => rfl

theorem marks_perform (rule : Rule) (call : Call) :
    (rule.perform call).value.2.marks = rule.marks.merge call.marks := by
  have hkept : rule.marks.merge {} = rule.marks := by simp [Marks.merge]
  cases call with
  | attach id follow =>
    by_cases h : rule.chain = .absent
    · rw [perform_attach_of_absent h]
      exact (marks_withChain _ rule).trans hkept.symm
    · rw [perform_attach_of_ne_absent h]
      exact hkept.symm
  | markDecision => exact marks_mark _ rule
  | markDeferred => exact marks_mark _ rule
  | prepare g => exact (marks_prepared g rule).trans hkept.symm
  | ask query => exact hkept.symm

theorem chain_perform (rule : Rule) (call : Call) (calls : List Call) :
    ((rule.perform call).value.2.chain.preparedFor (calls.flatMap Call.games)).or
        (firstChain calls) =
      (rule.chain.preparedFor ((call :: calls).flatMap Call.games)).or
        (firstChain (call :: calls)) := by
  cases call with
  | attach id follow =>
    cases h : rule.chain with
    | absent =>
      rw [perform_attach_of_absent h]
      simp [Chain.or, firstChain]
    | attached id' follow' =>
      rw [perform_attach_of_ne_absent (by simp [h])]
      simp [Chain.or, h, Call.games]
  | markDecision => simp [perform, firstChain, Call.games]
  | markDeferred => simp [perform, firstChain, Call.games]
  | prepare g =>
    have hchain : (rule.perform (.prepare g)).value.2.chain = rule.chain.prepared g :=
      chain_prepared g rule
    rw [hchain]
    rfl
  | ask query => rfl

/-! What a run does. -/

theorem chain_after (rule : Rule) (calls : List Call) : (rule.after calls).chain =
    (rule.chain.preparedFor (calls.flatMap Call.games)).or (firstChain calls) := by
  induction calls generalizing rule with
  | nil => exact (Chain.or_absent rule.chain).symm
  | cons call calls ih => rw [after_cons, ih, chain_perform]

theorem bare_after (rule : Rule) (calls : List Call) :
    (rule.after calls).bare = rule.bare.preparedFor (calls.flatMap Call.games) := by
  induction calls generalizing rule with
  | nil => rfl
  | cons call calls ih => rw [after_cons, ih, bare_perform, List.flatMap_cons, preparedFor_append]

theorem marks_after (rule : Rule) (calls : List Call) :
    ((rule.after calls).marks.decision = true ↔
        rule.marks.decision = true ∨ .markDecision ∈ calls) ∧
      ((rule.after calls).marks.deferred = true ↔
        rule.marks.deferred = true ∨ .markDeferred ∈ calls) := by
  induction calls generalizing rule with
  | nil => simp
  | cons call calls ih =>
    rw [after_cons, (ih _).1, (ih _).2, marks_perform]
    cases call <;> simp [Marks.merge, Call.marks]

theorem settled (rule : Rule) (calls : List Call) : rule.Settled calls :=
  ⟨chain_after rule calls, (marks_after rule calls).1, (marks_after rule calls).2,
    bare_after rule calls⟩

theorem after_filter (rule : Rule) (calls : List Call) :
    rule.after (calls.filter (!·.setsAttribute)) = rule.preparedFor (calls.flatMap Call.games) := by
  induction calls generalizing rule with
  | nil => rfl
  | cons call calls ih =>
    cases call with
    | attach id follow => exact ih rule
    | markDecision => exact ih rule
    | markDeferred => exact ih rule
    | prepare g => exact ih (rule.prepared g)
    | ask query => exact ih rule

theorem firstChain_eq_absent_iff {calls : List Call} :
    firstChain calls = .absent ↔ ∀ call ∈ calls, call.isAttach = false := by
  induction calls with
  | nil => simp [firstChain]
  | cons call calls ih => cases call <;> simp [firstChain, Call.isAttach, ih]

theorem chain_after_eq_absent_iff {calls : List Call} :
    (rule.after calls).chain = .absent ↔ rule.Unchained calls := by
  rw [chain_after, Chain.or_eq_absent_iff, Chain.preparedFor_eq_absent_iff,
    firstChain_eq_absent_iff, Unchained]

theorem refusedAlone {calls : List Call} (h : ¬ rule.Unchained calls) (id : ChainId)
    (follow : Rule) (later : List Call) :
    rule.RefusedAlone calls (.attach id follow) later := by
  have hchain := fun habsent => h (chain_after_eq_absent_iff.mp habsent)
  have hrefused := perform_attach_of_ne_absent hchain id follow
  have hlength := length_replies rule calls
  refine ⟨?reply, ?others, ?after, ?events⟩
  case reply =>
    rw [getElem?_replies, hrefused]
    rfl
  case others =>
    rw [replies_append, replies_append, replies_cons, hrefused,
      List.eraseIdx_append_of_length_le (by omega), hlength, Nat.sub_self]
    rfl
  case after =>
    rw [after_append, after_append, after_cons, hrefused]
    rfl
  case events =>
    rw [events_run_append, events_run_append, events_run_cons, hrefused]
    rfl

/-- The moves that a rule yields after some calls are those that it would yield without the calls
that set its attributes, with what was attached and marked till then. -/
theorem value_eval_after (rule : Rule) (calls : List Call) (s : Snapshot) :
    ((rule.after calls).eval s).value =
      ⟨((rule.bare.after (calls.filter (!·.setsAttribute))).eval s).value.moves.map
          (Move.stamp (rule.after calls).marks (rule.after calls).chain),
        (rule.after calls).chain.id?⟩ := by
  rw [value_eval, value_eval, moves_eq_map_stamp, bare_after, after_filter]

/-- After any calls the attributes of a rule are settled by the first attachment and by the marks
that were set. Evaluating it then yields, move by move, what it would yield if none of its
attributes had ever been set, with its chain as one more at the end and its decision mark. Another
attachment succeeds exactly if no chain was attached before, and otherwise goes unnoticed. -/
theorem attributes_set_once (rule : Rule) (calls : List Call) :
    rule.Settled calls ∧
      (∀ s later, (rule.replies (calls ++ .ask (.eval s) :: later))[calls.length]? =
        some (.set
          ⟨((rule.bare.after (calls.filter (!·.setsAttribute))).eval s).value.moves.map fun m =>
              { m with
                chains := m.chains ++ (rule.after calls).chain.id?.toList
                decision := m.decision || (rule.after calls).marks.decision },
            (rule.after calls).chain.id?⟩)) ∧
      (∀ id follow later, rule.Unchained calls →
        (rule.replies (calls ++ .attach id follow :: later))[calls.length]? = some .done) ∧
      ∀ id follow later, ¬ rule.Unchained calls →
        rule.RefusedAlone calls (.attach id follow) later := by
  refine ⟨settled rule calls, fun s later => ?_, fun id follow later hfree => ?_,
    fun id follow later htaken => refusedAlone htaken id follow later⟩
  · have hreply : ((rule.after calls).perform (.ask (.eval s))).value.1 =
        .set ((rule.after calls).eval s).value := rfl
    rw [getElem?_replies, hreply, value_eval_after]
    rfl
  · rw [getElem?_replies, perform_attach_of_absent (chain_after_eq_absent_iff.mpr hfree)]
    rfl

def passOrStep : Rule :=
  .ofParts .union [.leaf .pass { decision := true } (.attached ⟨7⟩ (.ofLeaf .place)),
    .ofLeaf (.step none)]

def loneBoard : Snapshot := (Snapshot.ofGame triangle).put ⟨0⟩ (some ⟨0⟩)

def chained : List Call := [.attach ⟨0⟩ (.ofLeaf .pass), .prepare triangle, .markDecision]

theorem attributes_set_once_passOrStep :
    passOrStep.Unchained [] ∧ ¬ passOrStep.Unchained chained ∧
      (passOrStep.replies chained)[0]? = some .done ∧
      passOrStep.RefusedAlone chained (.attach ⟨1⟩ (.ofLeaf .place)) [.ask .text] ∧
      (passOrStep.replies (chained ++ [.ask (.eval loneBoard)]))[3]? =
        some (.set
          ⟨[{ Move.pass ⟨0⟩ with decision := true, chains := [⟨7⟩, ⟨0⟩] },
            { Move.step ⟨0⟩ ⟨0⟩ ⟨1⟩ with decision := true, chains := [⟨0⟩] },
            { Move.step ⟨0⟩ ⟨0⟩ ⟨2⟩ with decision := true, chains := [⟨0⟩] }], some ⟨0⟩⟩) := by
  have hfree : passOrStep.Unchained [] := ⟨rfl, by simp⟩
  have htaken : ¬ passOrStep.Unchained chained := by simp [Unchained, chained, Call.isAttach]
  obtain ⟨-, -, hfirst, -⟩ := attributes_set_once passOrStep []
  obtain ⟨-, heval, -, hlater⟩ := attributes_set_once passOrStep chained
  refine ⟨hfree, htaken, hfirst ⟨0⟩ (.ofLeaf .pass) [.prepare triangle, .markDecision] hfree,
    hlater ⟨1⟩ (.ofLeaf .place) [.ask .text] htaken, ?_⟩
  exact (heval _ []).trans (congrArg (fun set => some (Reply.set set)) (by decide +kernel))

end Rule
end LegalMoves
