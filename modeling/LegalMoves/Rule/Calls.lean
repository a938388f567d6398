import LegalMoves.Oracle
import LegalMoves.Rule.Analysis
import LegalMoves.Rule.Chains

set_option autoImplicit false

namespace LegalMoves
namespace Rule

inductive Query where
  | eval (s : Snapshot)
  | cursor (s : Snapshot)
  | canMoveTo (target : Site) (s : Snapshot)
  | canMove (o : Oracle) (s : Snapshot)
  /-- The chain that a move triggers at a place of its list, evaluated. -/
  | consequent (m : Move) (place : Nat) (s : Snapshot)
  | capabilities
  | isStatic
  | text

inductive Call where
  | attach (id : ChainId) (follow : Rule)
  | markDecision
  | markDeferred
  | prepare (g : Game)
  | ask (query : Query)

inductive Reply where
  | done
  | refused (e : Error)
  | set (set : MoveSet)
  | cursor (c : Cursor)
  | truth (value : Bool)
  | inquiry (i : Inquiry)
  | consequent (set? : Option MoveSet)
  | capabilities (flags : Capabilities)
  | text (written : String)

def answer (rule : Rule) : Query → Traced Reply
  | .eval s => Reply.set <$> rule.eval s
  | .cursor s => Reply.cursor <$> rule.cursor s
  | .canMoveTo target s => Reply.truth <$> rule.canMoveTo target s
  | .canMove o s => Reply.inquiry <$> rule.canMove o s
  | .consequent m place s =>
    match rule.evalChain? m place s with
    | some set => (fun set => Reply.consequent (some set)) <$> set
    | none => pure (.consequent none)
  | .capabilities => pure (.capabilities rule.capabilities)
  | .isStatic => pure (.truth rule.isStatic)
  | .text => pure (.text rule.text)

def perform (rule : Rule) : Call → Traced (Reply × Rule)
  | .attach id follow =>
    match rule.attach id follow with
    | .ok extended => pure (.done, extended)
    | .error e => pure (.refused e, rule)
  | .markDecision => pure (.done, rule.mark { decision := true })
  | .markDeferred => pure (.done, rule.mark { deferred := true })
  | .prepare g => do
    let prepared ← rule.prepare g
    pure (.done, prepared)
  | .ask query => do
    let reply ← rule.answer query
    pure (reply, rule)

def run (rule : Rule) : List Call → Traced (List Reply × Rule)
  | [] => pure ([], rule)
  | call :: calls => do
    let (reply, next) ← rule.perform call
    let (replies, last) ← next.run calls
    pure (reply :: replies, last)

def replies (rule : Rule) (calls : List Call) : List Reply := (rule.run calls).value.1

def after (rule : Rule) (calls : List Call) : Rule := (rule.run calls).value.2

variable (rule : Rule) (call : Call) (calls later : List Call)

@[simp] theorem after_nil : rule.after [] = rule := rfl

@[simp] theorem after_cons :
    rule.after (call :: calls) = (rule.perform call).value.2.after calls := rfl

@[simp] theorem replies_cons : rule.replies (call :: calls) =
    (rule.perform call).value.1 :: (rule.perform call).value.2.replies calls := rfl

theorem events_run_cons : (rule.run (call :: calls)).events =
    (rule.perform call).events ++ ((rule.perform call).value.2.run calls).events := by
  simp [run]

theorem after_append : rule.after (calls ++ later) = (rule.after calls).after later := by
  induction calls generalizing rule with
  | nil => rfl
  | cons call calls ih => exact ih _

theorem replies_append :
    rule.replies (calls ++ later) = rule.replies calls ++ (rule.after calls).replies later := by
  induction calls generalizing rule with
  | nil => rfl
  | cons call calls ih => exact congrArg _ (ih _)

theorem events_run_append : (rule.run (calls ++ later)).events =
    (rule.run calls).events ++ ((rule.after calls).run later).events := by
  induction calls generalizing rule with
  | nil => rfl
  | cons call calls ih =>
    rw [List.cons_append, events_run_cons, events_run_cons, ih, List.append_assoc]
    rfl

@[simp] theorem length_replies : (rule.replies calls).length = calls.length := by
  induction calls generalizing rule with
  | nil => rfl
  | cons call calls ih => exact congrArg (· + 1) (ih _)

theorem getElem?_replies : (rule.replies (calls ++ call :: later))[calls.length]? =
    some ((rule.after calls).perform call).value.1 := by
  rw [replies_append, List.getElem?_append_right (by simp), length_replies, Nat.sub_self]
  rfl

variable {rule : Rule}

theorem perform_attach_of_absent (h : rule.chain = .absent) (id : ChainId) (follow : Rule) :
    rule.perform (.attach id follow) = pure (.done, rule.withChain (.attached id follow)) := by
  rw [perform, attach, h]

theorem perform_attach_of_ne_absent (h : rule.chain ≠ .absent) (id : ChainId) (follow : Rule) :
    rule.perform (.attach id follow) = pure (.refused .chainAlreadyAttached, rule) := by
  rw [perform, attach_eq_error_iff.mpr h]

end Rule
end LegalMoves
