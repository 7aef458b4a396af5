/-
Choosing a catch clause for the exception in flight.

The clauses are tried in the order given and the first that accepts the thrown
type is chosen. What it receives may be a subobject; that address becomes an
alias, so that later calls with it lead back to the exception. If no clause
accepts, the exception comes back with its own type, and the caller can tell,
because a type that accepts itself would have been chosen.
-/
import ExceptionLifetime.Context.State

set_option autoImplicit false

namespace ExceptionLifetime

/-- What a landing pad receives: the exception, as the chosen clause sees it, and the type
that was chosen, if there was anything to choose by. -/
structure MatchedClause where
  exception : Handle
  selector : Option TypeTag
  deriving DecidableEq

/-- Nothing is in flight. -/
def MatchedClause.nothing : MatchedClause := ⟨Handle.null, none⟩

namespace Context

variable {α : Type}

/-- The context in which the exception `h` goes by `adjusted` too. A name that leads
elsewhere is a misuse, and is not given. -/
def giveAlias (build : Build) (c : Context α) (h adjusted : Handle) : Step (Context α) Unit :=
  match c.registry.addAlias h adjusted with
  | .ok registry => .returning { c with registry } ()
  | .error v => reported build v c (.returning c ())

/-- Chooses among the clauses for the exception `h`, which was thrown as `type`. -/
def chooseClause (build : Build) (c : Context α) (h : Handle) (type : TypeTag)
    (clauses : List TypeTag) : Step (Context α) MatchedClause :=
  match c.types.firstClause? clauses type h with
  | some (adjusted, clause) =>
    (c.giveAlias build h adjusted).andThen fun _ c =>
    ⟨.returned ⟨adjusted, some clause⟩, c, [.logged (.clauseFound adjusted clause)]⟩
  | none => ⟨.returned ⟨h, some type⟩, c, [.logged (.noClause h)]⟩

/-- Chooses a catch clause for the exception thrown last. An exception without a type is
passed through. -/
def matchClause (build : Build) (c : Context α) (clauses : List TypeTag) :
    Step (Context α) MatchedClause :=
  (c.resolve c.lastThrown).andThen fun h c =>
  if h.isNull then .returning c .nothing
  else
    match (c.registry.find? h).bind Record.type with
    | none => .returning c ⟨h, none⟩
    | some type =>
      let pointer := c.types.isPointer type
      .after [.logged (.matching h type pointer)] <|
        (c.chooseClause build h type clauses).andThen fun m c =>
        ⟨.returned m, c, c.seen (.matched h m.exception m.selector pointer)⟩

end Context

end ExceptionLifetime
