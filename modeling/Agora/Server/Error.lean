import Mathlib.Tactic.TypeStar

/-!
# Errors of the server

`AppError` of `utils/error.rs`, as far as the handlers modelled here answer with
it.
-/

namespace Agora.Server

inductive AppError where
  | validationError (message : String)
  | internalServerError (message : String)
  | notFound (message : String)
  | conflict (message : String)
  | forbidden (message : String)
  | databaseError
  deriving DecidableEq, Repr

end Agora.Server
