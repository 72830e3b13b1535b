import SyncBoard.Board.ListWrites
import SyncBoard.Lib.Run

/-!
# Runs of the board services

One call after the other of `CardService`, `LabelService`, `ListService` and
`BoardService` on one database. A request carries what its call takes from
outside, the id of a new row and the clock; the `lexorank` package and the order
of the `rank` column are the same for all of them.
-/

namespace SyncBoard.Board

open Relational Fallible Labelled

/-- A call of one of the services. -/
inductive Operation
  | card (call : Call)
  | list (call : ListCall)
  | board (call : BoardCall)

def Operation.run (env : Env) : Operation → Service Unit
  | .card call => call.run env
  | .list call => call.run env
  | .board call => call.run env

/-- The `lexorank` package and the order of the `rank` column. -/
structure Ranking where
  lexorank : LexoRank
  rankLe : JsString → JsString → Bool

/-- A call with the id of a row that it may insert and the time at which it runs. -/
structure Request where
  operation : Operation
  newId : Uuid
  now : Timestamp

def Request.env (ranking : Ranking) (r : Request) : Env where
  lexorank := ranking.lexorank
  rankLe := ranking.rankLe
  newId := r.newId
  now := r.now

/-- A request that nobody interrupts. -/
def step (ranking : Ranking) (w : World) (r : Request) : Option World :=
  some (exec (r.operation.run (r.env ranking)) w).2

/-- Whatever a call throws, it throws before anything is written. -/
theorem clean_operation (env : Env) (op : Operation) : Clean (op.run env) := by
  cases op with
  | card call => exact clean_run env call
  | list call => exact clean_listCall env call
  | board call => exact clean_boardCall env call

section Steps
variable {ranking : Ranking} {w w' : World} {r : Request}

/-- A request returns, or it changes nothing. -/
theorem step_cases (h : step ranking w r = some w') :
    Returns (r.operation.run (r.env ranking)) w () w' ∨ w' = w := by
  rw [step, Option.some_inj] at h
  cases hexec : exec (r.operation.run (r.env ranking)) w with
  | mk result u =>
      rw [hexec] at h
      obtain rfl : u = w' := h
      cases result with
      | ok a => exact .inl hexec
      | error e => exact .inr (clean_operation (r.env ranking) r.operation w e u hexec)

/-- Where a request returns, it leaves the state that the step leaves. -/
theorem step_of_returns (h : Returns (r.operation.run (r.env ranking)) w () w') :
    step ranking w r = some w' := by
  rw [step, Option.some_inj]
  exact congrArg Prod.snd h

/-- Where a request does not return, it changes nothing, and returns nowhere else. -/
theorem step_throws (h : step ranking w r = some w')
    (hthrows : ¬ Returns (r.operation.run (r.env ranking)) w () w') :
    w' = w ∧ ∀ u, ¬ Returns (r.operation.run (r.env ranking)) w () u := by
  refine ⟨(step_cases h).resolve_left hthrows, fun u hu => hthrows ?_⟩
  obtain rfl := Option.some.inj ((step_of_returns hu).symm.trans h)
  exact hu

end Steps

end SyncBoard.Board
