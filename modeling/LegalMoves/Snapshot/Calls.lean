import LegalMoves.Lists
import LegalMoves.Snapshot.Basic

set_option autoImplicit false

namespace LegalMoves
namespace Snapshot

inductive Call where
  | put (site : Site) (owner : Option Player)
  | withMover (p : Player)
  | advance
  deriving DecidableEq, Repr

def perform (s : Snapshot) : Call → Snapshot
  | .put site owner => s.put site owner
  | .withMover p => s.withMover p
  | .advance => s.advance 1

def run (s : Snapshot) (calls : List Call) : Snapshot := calls.foldl perform s

/-- What a call puts on a site, if it puts anything there. Emptying a site counts. -/
def Call.putOn? (site : Site) : Call → Option (Option Player)
  | .put other owner => if other = site then some owner else none
  | .withMover _ | .advance => none

def Call.mover? : Call → Option Player
  | .withMover p => some p
  | .put _ _ | .advance => none

def lastPut? (calls : List Call) (site : Site) : Option (Option Player) :=
  (calls.filterMap (Call.putOn? site)).getLast?

def lastMover? (calls : List Call) : Option Player := (calls.filterMap Call.mover?).getLast?

/-- Who owns a site after some calls, on a board of the given size that was empty before. -/
def ownerAfter (sites : Nat) (calls : List Call) (site : Site) : Option Player :=
  if site.toNat < sites then (lastPut? calls site).join else none

def isEmptyAfter (sites : Nat) (calls : List Call) (site : Site) : Bool :=
  decide (site.toNat < sites) && (ownerAfter sites calls site).isNone

variable {s : Snapshot} {site : Site} {players sites : Nat}

theorem lastPut?_cons (call : Call) (calls : List Call) (site : Site) :
    lastPut? (call :: calls) site = (lastPut? calls site).or (call.putOn? site) :=
  List.getLast?_filterMap_cons _ call calls

theorem lastMover?_cons (call : Call) (calls : List Call) :
    lastMover? (call :: calls) = (lastMover? calls).or call.mover? :=
  List.getLast?_filterMap_cons _ call calls

theorem run_cons (s : Snapshot) (call : Call) (calls : List Call) :
    s.run (call :: calls) = (s.perform call).run calls := rfl

@[simp] theorem siteCount_perform (s : Snapshot) (call : Call) :
    (s.perform call).siteCount = s.siteCount := by
  cases call with
  | put site owner => exact s.siteCount_put site owner
  | withMover p => rfl
  | advance => rfl

theorem players_perform (s : Snapshot) (call : Call) : (s.perform call).players = s.players := by
  cases call <;> rfl

theorem mover_perform (s : Snapshot) (call : Call) :
    (s.perform call).mover = call.mover?.getD s.mover := by
  cases call <;> rfl

theorem owner_perform (h : site.toNat < s.siteCount) (call : Call) :
    (s.perform call).owner site = (call.putOn? site).getD (s.owner site) := by
  cases call with
  | put other o =>
    by_cases heq : other = site
    · subst heq
      simp [perform, owner_put, Call.putOn?, h]
    · simp [perform, owner_put, Call.putOn?, heq]
  | withMover p => rfl
  | advance => rfl

@[simp] theorem siteCount_run (s : Snapshot) (calls : List Call) :
    (s.run calls).siteCount = s.siteCount := by
  induction calls generalizing s with
  | nil => rfl
  | cons call calls ih => rw [run_cons, ih, siteCount_perform]

theorem players_run (s : Snapshot) (calls : List Call) : (s.run calls).players = s.players := by
  induction calls generalizing s with
  | nil => rfl
  | cons call calls ih => rw [run_cons, ih, players_perform]

theorem mover_run (s : Snapshot) (calls : List Call) :
    (s.run calls).mover = (lastMover? calls).getD s.mover := by
  induction calls generalizing s with
  | nil => rfl
  | cons call calls ih => rw [run_cons, ih, mover_perform, lastMover?_cons, Option.getD_or]

/-- A site of the board has the owner that was put there last, and if there was none the owner that
it had before. -/
theorem owner_run (h : site.toNat < s.siteCount) (calls : List Call) :
    (s.run calls).owner site = (lastPut? calls site).getD (s.owner site) := by
  induction calls generalizing s with
  | nil => rfl
  | cons call calls ih =>
    have hlt : site.toNat < (s.perform call).siteCount := by rwa [siteCount_perform]
    rw [run_cons, ih hlt, owner_perform h, lastPut?_cons, Option.getD_or]

theorem turn_run (s : Snapshot) (calls : List Call) :
    (s.run calls).turn = s.turn + UInt32.ofNat (calls.count .advance) := by
  induction calls generalizing s with
  | nil => simp [run]
  | cons call calls ih =>
    rw [run_cons, ih]
    cases call with
    | advance =>
      rw [List.count_cons_self, Nat.add_comm _ 1, UInt32.ofNat_add, ← UInt32.add_assoc]
      rfl
    | put site owner => simp [perform, put]
    | withMover p => simp [perform, withMover]

theorem Addressed.perform (h : s.Addressed) (call : Call) : (s.perform call).Addressed := by
  cases call with
  | put site o =>
    intro i p hi
    by_cases heq : site.toNat = i
    · have hlt := site.toNat_lt
      omega
    · exact h i p ((Array.getElem?_setIfInBounds_ne heq).symm.trans hi)
  | withMover p => exact h
  | advance => exact h

theorem Addressed.run (h : s.Addressed) (calls : List Call) : (s.run calls).Addressed := by
  induction calls generalizing s with
  | nil => exact h
  | cons call calls ih => exact ih (h.perform call)

theorem addressed_ofSize (h : ofSize players sites = .ok s) : s.Addressed := by
  intro i p hi
  rw [(ofSize_eq_ok h).2.1, Array.getElem?_replicate] at hi
  split at hi <;> simp at hi

theorem owner_run_ofSize (h : ofSize players sites = .ok s) (calls : List Call) (site : Site) :
    (s.run calls).owner site = ownerAfter sites calls site := by
  have hcount := siteCount_ofSize h
  by_cases hlt : site.toNat < sites
  · have hempty := owner_ofSize h site
    rw [ownerAfter, if_pos hlt, owner_run (by omega), hempty]
    cases lastPut? calls site <;> rfl
  · rw [ownerAfter, if_neg hlt]
    exact owner_eq_none (by rw [siteCount_run]; omega)

theorem isEmpty_run_ofSize (h : ofSize players sites = .ok s) (calls : List Call) (site : Site) :
    (s.run calls).isEmpty site = isEmptyAfter sites calls site := by
  have hcount := siteCount_ofSize h
  rw [Bool.eq_iff_iff, isEmpty_iff, siteCount_run, owner_run_ofSize h, hcount]
  simp [isEmptyAfter]

end Snapshot
end LegalMoves
