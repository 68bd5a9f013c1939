set_option autoImplicit false

/-! # Replies

A filter asked about a meter accepts it, denies it or has no opinion. Among several filters the
first opinion counts (`Reply.orElse`, `firstDecisive`). -/

namespace MeterGate

/-- A filter's answer on whether a meter should be made. -/
inductive Reply where
  | accept
  | deny
  | neutral
deriving DecidableEq, Repr, Inhabited

namespace Reply

/-- Every reply, in the order in which messages list them. -/
def all : List Reply := [.accept, .deny, .neutral]

/-- The name of a reply in log events. -/
def label : Reply → String
  | .accept => "accept"
  | .deny => "deny"
  | .neutral => "neutral"

/-- The reply of a name. -/
def ofLabel? (s : String) : Option Reply := all.find? (·.label == s)

theorem ofLabel?_label (r : Reply) : ofLabel? r.label = some r := by cases r <;> decide

/-- The first of two replies that is an opinion. -/
def orElse : Reply → Reply → Reply
  | .neutral, r => r
  | r, _ => r

/-- The first opinion in a list of replies, `neutral` if there is none. -/
def firstDecisive (replies : List Reply) : Reply := replies.foldr orElse .neutral

end Reply

end MeterGate
