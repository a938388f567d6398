import LegalMoves.Oracle
import LegalMoves.Proofs.Flow
import LegalMoves.Rule.Analysis

set_option autoImplicit false

/-!
Grouping. A union among the parts of a union, or a priority among the parts of a priority, adds
nothing of its own if it has no chain and is no decision: its parts may as well stand in its place.
What a compound makes of its list of parts is put together from what it makes of the pieces of the
list (`…_append`), and a group comes to the same as the parts in it (`…_group`).
-/
namespace LegalMoves

/-- Two rules that give the same answer to every query: evaluated, streamed, asked for a move to a
site or for a move that an oracle allows, and analysed. Counted rules below meet the same events. -/
structure Rule.Agrees (a b : Rule) : Prop where
  eval : ∀ s, a.eval s = b.eval s
  cursor : ∀ s, a.cursor s = b.cursor s
  canMoveTo : ∀ target s, a.canMoveTo target s = b.canMoveTo target s
  canMove : ∀ o s, a.canMove o s = b.canMove o s
  capabilities : a.capabilities = b.capabilities
  isStatic : a.isStatic = b.isStatic

namespace Move

theorem stamp_unmarked (deferred : Bool) : stamp { deferred } .absent = id := by
  funext m
  simp [stamp, Chain.id?]

end Move

namespace MoveStream

theorem map_id (s : MoveStream) : s.map id = s := by
  induction s with
  | stop => rfl
  | emit m rest ih => simp [map, ih]
  | note e rest ih => simp [map, ih]

theorem append_stop (s : MoveStream) : s.append (fun _ => stop) = s := by
  induction s with
  | stop => rfl
  | emit m rest ih => simp [append, ih]
  | note e rest ih => simp [append, ih]

theorem append_append (s : MoveStream) (second third : Unit → MoveStream) :
    (s.append second).append third = s.append fun _ => (second ()).append third := by
  induction s with
  | stop => rfl
  | emit m rest ih => simp [append, ih]
  | note e rest ih => simp [append, ih]

theorem peek_of_isReady {s : MoveStream} (h : s.isReady = true) : s.peek = pure s := by
  cases s with
  | emit m rest => rfl
  | stop => simp [isReady] at h
  | note e rest => simp [isReady] at h

end MoveStream

namespace Rule

/-- The rule of a kind whose middle parts are grouped under a rule of the same kind without a chain
and without a decision mark. -/
def grouped (kind : Compound) (xs ys zs : List Rule) (deferred : Bool) (marks : Marks)
    (chain : Chain) : Rule :=
  .compound kind (xs ++ [.compound kind ys { deferred } .absent] ++ zs) marks chain

theorem evaluateAll_append (xs ys : List Rule) (s : Snapshot) :
    evaluateAll (xs ++ ys) s =
      (do
        let ms ← evaluateAll xs s
        let others ← evaluateAll ys s
        pure (ms ++ others)) := by
  induction xs with
  | nil => simp [evaluateAll]
  | cons rule rules ih => ext1 <;> simp [evaluateAll, ih]

theorem evaluateAll_group (deferred : Bool) (ys : List Rule) (s : Snapshot) :
    evaluateAll [.compound .union ys { deferred } .absent] s = evaluateAll ys s := by
  simp [evaluateAll, evaluate, Move.stamp_unmarked]

theorem evaluateFirst_append (xs ys : List Rule) (s : Snapshot) :
    evaluateFirst (xs ++ ys) s =
      (do
        let ms ← evaluateFirst xs s
        if ms.isEmpty then evaluateFirst ys s else pure ms) := by
  induction xs with
  | nil => simp [evaluateFirst]
  | cons rule rules ih =>
    by_cases hnone : rule.moves s = []
    · ext1 <;> simp [evaluateFirst, ih, hnone]
    · ext1 <;> simp [evaluateFirst, ih, hnone]

theorem evaluateFirst_group (deferred : Bool) (ys : List Rule) (s : Snapshot) :
    evaluateFirst [.compound .priority ys { deferred } .absent] s = evaluateFirst ys s := by
  have hsame : ∀ ms : List Move, (if ms = [] then pure [] else pure ms : Traced (List Move)) =
      pure ms := by
    intro ms
    cases ms <;> rfl
  simp [evaluateFirst, evaluate, Move.stamp_unmarked, hsame]

theorem openAll_append (xs ys : List Rule) (s : Snapshot) :
    openAll (xs ++ ys) s = (openAll xs s).append fun _ => openAll ys s := by
  induction xs with
  | nil => rfl
  | cons rule rules ih =>
    rw [List.cons_append, openAll_cons, openAll_cons, ih, MoveStream.append_append]

theorem openAll_group (deferred : Bool) (ys : List Rule) (s : Snapshot) :
    openAll [.compound .union ys { deferred } .absent] s = openAll ys s := by
  rw [openAll_cons, flow_union, Move.stamp_unmarked, MoveStream.map_id, openAll,
    MoveStream.append_stop]

theorem openFirst_nil (s : Snapshot) : openFirst [] s = pure .stop := rfl

theorem openFirst_cons (rule : Rule) (rules : List Rule) (s : Snapshot) :
    openFirst (rule :: rules) s =
      (do
        let c ← rule.cursor s
        let stream ← c.stream.peek
        if stream.isReady then pure stream else openFirst rules s) := by
  simp [openFirst, Cursor.hasNext]

/-- What a priority prefers has its first move at hand. -/
theorem openFirst_eq_stop_or_isReady (rules : List Rule) (s : Snapshot) :
    (openFirst rules s).value = .stop ∨ (openFirst rules s).value.isReady = true := by
  induction rules with
  | nil => exact Or.inl rfl
  | cons rule rules ih =>
    by_cases hready : (rule.cursor s).value.stream.peek.value.isReady = true
    · simp [openFirst_cons, hready]
    · simpa [openFirst_cons, hready] using ih

theorem openFirst_append (xs ys : List Rule) (s : Snapshot) :
    openFirst (xs ++ ys) s =
      (do
        let stream ← openFirst xs s
        if stream.isReady then pure stream else openFirst ys s) := by
  induction xs with
  | nil => simp [openFirst, MoveStream.isReady]
  | cons rule rules ih =>
    by_cases hready : (rule.cursor s).value.stream.peek.value.isReady = true
    · ext1 <;> simp [openFirst_cons, hready]
    · ext1 <;> simp [openFirst_cons, ih, hready]

theorem openFirst_group (deferred : Bool) (ys : List Rule) (s : Snapshot) :
    openFirst [.compound .priority ys { deferred } .absent] s = openFirst ys s := by
  rcases openFirst_eq_stop_or_isReady ys s with hstop | hready
  · ext1 <;> simp [openFirst_cons, openFirst_nil, cursor, Cursor.onDemand, hstop, MoveStream.map,
      MoveStream.peek, MoveStream.isReady]
  · have hpeek := MoveStream.peek_of_isReady hready
    ext1 <;> simp [openFirst_cons, cursor, Cursor.onDemand, Move.stamp_unmarked,
      MoveStream.map_id, hpeek, hready]

theorem capabilitiesAll_append (xs ys : List Rule) :
    capabilitiesAll (xs ++ ys) = capabilitiesAll xs ∪ capabilitiesAll ys := by
  induction xs with
  | nil => simp [capabilitiesAll]
  | cons rule rules ih => simp [capabilitiesAll, ih, Capabilities.union_assoc]

theorem capabilitiesAll_group (kind : Compound) (deferred : Bool) (ys : List Rule) :
    capabilitiesAll [.compound kind ys { deferred } .absent] = capabilitiesAll ys := by
  simp [capabilitiesAll, capabilities, Chain.capabilities]

theorem allStatic_append (xs ys : List Rule) :
    allStatic (xs ++ ys) = (allStatic xs && allStatic ys) := by
  simp

theorem allStatic_group (kind : Compound) (deferred : Bool) (ys : List Rule) :
    allStatic [.compound kind ys { deferred } .absent] = allStatic ys := by
  simp [isStatic, Chain.isStatic]

theorem events_prepareAll_append (g : Game) (xs ys : List Rule) :
    (prepareAll g (xs ++ ys)).events = (prepareAll g xs).events ++ (prepareAll g ys).events := by
  induction xs with
  | nil => rfl
  | cons rule rules ih => simp [prepareAll, ih]

theorem events_prepareAll_group (g : Game) (kind : Compound) (deferred : Bool) (ys : List Rule) :
    (prepareAll g [.compound kind ys { deferred } .absent]).events = (prepareAll g ys).events := by
  simp [prepareAll, prepare, Chain.prepare]

section Grouped

variable (kind : Compound) (xs ys zs : List Rule) (deferred : Bool) (marks : Marks) (chain : Chain)

theorem eval_grouped (s : Snapshot) :
    (grouped kind xs ys zs deferred marks chain).eval s =
      (Rule.compound kind (xs ++ ys ++ zs) marks chain).eval s := by
  cases kind with
  | union =>
    simp only [grouped, eval, evaluate, evaluateAll_append, evaluateAll_group, Rule.chain]
  | priority =>
    simp only [grouped, eval, evaluate, evaluateFirst_append, evaluateFirst_group, Rule.chain]

theorem cursor_grouped (s : Snapshot) :
    (grouped kind xs ys zs deferred marks chain).cursor s =
      (Rule.compound kind (xs ++ ys ++ zs) marks chain).cursor s := by
  cases kind with
  | union => simp only [grouped, cursor, openAll_append, openAll_group]
  | priority => simp only [grouped, cursor, openFirst_append, openFirst_group]

theorem capabilities_grouped :
    (grouped kind xs ys zs deferred marks chain).capabilities =
      (Rule.compound kind (xs ++ ys ++ zs) marks chain).capabilities := by
  simp only [grouped, capabilities, capabilitiesAll_append, capabilitiesAll_group]

theorem isStatic_grouped :
    (grouped kind xs ys zs deferred marks chain).isStatic =
      (Rule.compound kind (xs ++ ys ++ zs) marks chain).isStatic := by
  simp only [grouped, isStatic, allStatic_append, allStatic_group]

theorem events_prepare_grouped (g : Game) :
    ((grouped kind xs ys zs deferred marks chain).prepare g).events =
      ((Rule.compound kind (xs ++ ys ++ zs) marks chain).prepare g).events := by
  simp only [grouped, prepare, Traced.events_bind, Traced.events_pure, events_prepareAll_append,
    events_prepareAll_group]

theorem prepared_grouped (g : Game) :
    (grouped kind xs ys zs deferred marks chain).prepared g =
      grouped kind (xs.map (prepared g)) (ys.map (prepared g)) (zs.map (prepared g)) deferred marks
        (chain.prepared g) := by
  simp [grouped]

theorem prepared_ungrouped (g : Game) :
    (Rule.compound kind (xs ++ ys ++ zs) marks chain).prepared g =
      .compound kind (xs.map (prepared g) ++ ys.map (prepared g) ++ zs.map (prepared g)) marks
        (chain.prepared g) := by
  simp

theorem agrees_grouped :
    (grouped kind xs ys zs deferred marks chain).Agrees
      (.compound kind (xs ++ ys ++ zs) marks chain) := by
  have hcursor := cursor_grouped kind xs ys zs deferred marks chain
  exact {
    eval := eval_grouped kind xs ys zs deferred marks chain
    cursor := hcursor
    canMoveTo := fun target s => by rw [canMoveTo, canMoveTo, probe, probe, hcursor]
    canMove := fun o s => by rw [canMove, canMove, hcursor]
    capabilities := capabilities_grouped kind xs ys zs deferred marks chain
    isStatic := isStatic_grouped kind xs ys zs deferred marks chain }

/-- A group among the parts of a rule of its own kind cannot be told from its parts, be it empty or
not. Preparing reaches the same parts in the same order in both trees, does to each what it does to
it alone, and leaves a group that cannot be told from its parts either. -/
theorem grouped_unobservable :
    (grouped kind xs ys zs deferred marks chain).Agrees
        (.compound kind (xs ++ ys ++ zs) marks chain) ∧
      ∀ g : Game,
        ((grouped kind xs ys zs deferred marks chain).prepare g).events =
            ((Rule.compound kind (xs ++ ys ++ zs) marks chain).prepare g).events ∧
          (grouped kind xs ys zs deferred marks chain).prepared g =
            grouped kind (xs.map (prepared g)) (ys.map (prepared g)) (zs.map (prepared g)) deferred
              marks (chain.prepared g) ∧
          (Rule.compound kind (xs ++ ys ++ zs) marks chain).prepared g =
            .compound kind (xs.map (prepared g) ++ ys.map (prepared g) ++ zs.map (prepared g)) marks
              (chain.prepared g) ∧
          ((grouped kind xs ys zs deferred marks chain).prepared g).Agrees
            ((Rule.compound kind (xs ++ ys ++ zs) marks chain).prepared g) := by
  refine ⟨agrees_grouped kind xs ys zs deferred marks chain, fun g => ?_⟩
  have hgrouped := prepared_grouped kind xs ys zs deferred marks chain g
  have hungrouped := prepared_ungrouped kind xs ys zs marks chain g
  refine ⟨events_prepare_grouped kind xs ys zs deferred marks chain g, hgrouped, hungrouped, ?_⟩
  rw [hgrouped, hungrouped]
  exact agrees_grouped kind _ _ _ deferred marks _

end Grouped

end Rule
end LegalMoves
