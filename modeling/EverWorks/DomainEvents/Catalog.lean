/-!
What a subscription pattern matches, and the types that only the holder of a read scope is served.
-/

namespace EverWorks.DomainEvents

def isOptIn (type : String) : Bool := type = "task.runtime_updated"

def matchesDomainEventPattern (type pattern : String) : Bool :=
  if pattern = type then true
  else if isOptIn type then false
  else if pattern = "*" then true
  else if ".*".toList <:+ pattern.toList then decide (pattern.toList.dropLast <+: type.toList)
  else false

def matchesAnyDomainEventPattern (type : String) (patterns : List String) : Bool :=
  patterns.any (matchesDomainEventPattern type)

def RECIPIENT_EVENT_VISIBILITY : String := "recipient"

def RECIPIENT_SCOPED_EVENT_DOMAINS : List (String × String) := [("inbox", "inbox:read"), ("email", "email:read")]

def recipientScopeForEventType (type : String) : Option String :=
  let domain := String.ofList (type.toList.takeWhile (· ≠ '.'))
  (RECIPIENT_SCOPED_EVENT_DOMAINS.find? (·.1 = domain)).map (·.2)

end EverWorks.DomainEvents
