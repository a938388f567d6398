import LegalMoves.Rule.Basic

set_option autoImplicit false

/-!
The moves of a rule. Each rule on the way from a leaf up to the root stamps the moves that come by:
it appends its chain and carries its decision mark. The equations below give the moves of a rule
without the events that record how they were found.
-/
namespace LegalMoves

namespace Leaf

def placements (s : Snapshot) (site : Site) : List Move :=
  if s.isEmpty site then [Move.add s.mover site] else []

/-- The neighbours of a site in a table; none without a table or outside it. -/
def tableNeighbours (table : Option (Array (List Site))) (site : Site) : List Site :=
  ((table.getD #[])[site.toNat]?).getD []

def steps (table : Option (Array (List Site))) (s : Snapshot) (origin : Site) : List Move :=
  ((tableNeighbours table origin).filter s.isEmpty).map (Move.step s.mover origin)

/-- The moves of a leaf before they are stamped. -/
def moves : Leaf → Snapshot → List Move
  | pass, s => [Move.pass s.mover]
  | place, s => s.sites.flatMap (placements s)
  | step table, s => (s.sitesOf s.mover).flatMap (steps table s)
  | listed ms _ _, _ => ms
  | custom rule, s => rule.moves s

def stream : Leaf → Snapshot → MoveStream
  | pass, s => .ofList [Move.pass s.mover]
  | place, s => .collect (placements s) s.sites
  | step table, s => .collect (steps table s) (s.sitesOf s.mover)
  | listed ms _ _, _ => .ofList ms
  | custom rule, s =>
    match rule.stream? with
    | some stream => stream s
    | none => .ofList (rule.moves s)

def isLazy : Leaf → Bool
  | pass => false
  | place | step _ | listed _ _ _ => true
  | custom rule => rule.stream?.isSome

variable {own : Leaf}

theorem stream_eq_ofList (h : own.isCustom = false) (s : Snapshot) :
    own.stream s = .ofList (own.moves s) := by
  cases own with
  | custom rule => simp [isCustom] at h
  | pass => rfl
  | place => exact MoveStream.collect_eq_ofList _ _
  | step table => exact MoveStream.collect_eq_ofList _ _
  | listed ms declared carried => rfl

theorem toList_stream (h : own.isCustom = false) (s : Snapshot) :
    (own.stream s).toList = own.moves s := by
  rw [stream_eq_ofList h, MoveStream.toList_ofList]

theorem eventList_stream (h : own.isCustom = false) (s : Snapshot) :
    (own.stream s).eventList = [] := by
  rw [stream_eq_ofList h, MoveStream.eventList_ofList]

end Leaf

namespace Move

def stamp (marks : Marks) (chain : Chain) (m : Move) : Move :=
  { m with chains := m.chains ++ chain.id?.toList, decision := m.decision || marks.decision }

@[simp] theorem stamp_plain (m : Move) : m.stamp {} .absent = m := by
  simp [stamp, Chain.id?]

end Move

namespace Rule

mutual

def evaluate : Rule → Snapshot → Traced (List Move)
  | .leaf own marks chain, s => pure ((own.moves s).map (Move.stamp marks chain))
  | .compound .union parts marks chain, s => do
    let ms ← evaluateAll parts s
    pure (ms.map (Move.stamp marks chain))
  | .compound .priority parts marks chain, s => do
    let ms ← evaluateFirst parts s
    pure (ms.map (Move.stamp marks chain))
  | .counted id inner, s => do
    Traced.note (.evaluated id)
    inner.evaluate s

def evaluateAll : List Rule → Snapshot → Traced (List Move)
  | [], _ => pure []
  | rule :: rules, s => do
    let ms ← rule.evaluate s
    let others ← evaluateAll rules s
    pure (ms ++ others)

/-- The moves of the first rule of a list that has any. Later rules are not evaluated. -/
def evaluateFirst : List Rule → Snapshot → Traced (List Move)
  | [], _ => pure []
  | rule :: rules, s => do
    let ms ← rule.evaluate s
    if ms.isEmpty then evaluateFirst rules s else pure ms

end

def eval (rule : Rule) (s : Snapshot) : Traced MoveSet := do
  let ms ← rule.evaluate s
  pure ⟨ms, rule.chain.id?⟩

def moves (rule : Rule) (s : Snapshot) : List Move := (rule.evaluate s).value

@[simp] theorem value_evaluate (rule : Rule) (s : Snapshot) :
    (rule.evaluate s).value = rule.moves s := rfl

@[simp] theorem moves_leaf (own : Leaf) (marks : Marks) (chain : Chain) (s : Snapshot) :
    (Rule.leaf own marks chain).moves s = (own.moves s).map (Move.stamp marks chain) := rfl

@[simp] theorem moves_counted (id : String) (inner : Rule) (s : Snapshot) :
    (Rule.counted id inner).moves s = inner.moves s := rfl

@[simp] theorem value_evaluateAll (rules : List Rule) (s : Snapshot) :
    (evaluateAll rules s).value = rules.flatMap (·.moves s) := by
  induction rules with
  | nil => rfl
  | cons rule rules ih => simp [evaluateAll, ih]

@[simp] theorem value_evaluateFirst (rules : List Rule) (s : Snapshot) :
    (evaluateFirst rules s).value =
      ((rules.map (·.moves s)).find? (!·.isEmpty)).getD [] := by
  induction rules with
  | nil => rfl
  | cons rule rules ih =>
    have hm : rule.moves s = (rule.evaluate s).value := rfl
    rcases h : rule.evaluate s with ⟨_ | ⟨m, ms⟩, events⟩
    · rw [h] at hm
      simpa [evaluateFirst, h, List.find?_cons, hm] using ih
    · rw [h] at hm
      simp [evaluateFirst, h, hm]

theorem moves_union (parts : List Rule) (marks : Marks) (chain : Chain) (s : Snapshot) :
    (Rule.compound .union parts marks chain).moves s =
      (parts.flatMap (·.moves s)).map (Move.stamp marks chain) := by
  rw [← value_evaluateAll]; rfl

theorem moves_priority (parts : List Rule) (marks : Marks) (chain : Chain) (s : Snapshot) :
    (Rule.compound .priority parts marks chain).moves s =
      (((parts.map (·.moves s)).find? (!·.isEmpty)).getD []).map (Move.stamp marks chain) := by
  rw [← value_evaluateFirst]; rfl

theorem exists_part_of_mem_moves {kind : Compound} {parts : List Rule} {marks : Marks}
    {chain : Chain} {s : Snapshot} {m : Move}
    (h : m ∈ (Rule.compound kind parts marks chain).moves s) :
    ∃ part ∈ parts, ∃ raw ∈ part.moves s, raw.stamp marks chain = m := by
  cases kind with
  | union =>
    rw [moves_union] at h
    obtain ⟨raw, hraw, hstamp⟩ := List.mem_map.mp h
    obtain ⟨part, hmem, hfrom⟩ := List.mem_flatMap.mp hraw
    exact ⟨part, hmem, raw, hfrom, hstamp⟩
  | priority =>
    rw [moves_priority] at h
    obtain ⟨raw, hraw, hstamp⟩ := List.mem_map.mp h
    rcases hfind : (parts.map (·.moves s)).find? (!·.isEmpty) with _ | ms
    · simp [hfind] at hraw
    · obtain ⟨part, hmem, rfl⟩ := List.mem_map.mp (List.mem_of_find?_eq_some hfind)
      exact ⟨part, hmem, raw, by simpa [hfind] using hraw, hstamp⟩

theorem value_eval (rule : Rule) (s : Snapshot) :
    (rule.eval s).value = ⟨rule.moves s, rule.chain.id?⟩ := rfl

end Rule
end LegalMoves
