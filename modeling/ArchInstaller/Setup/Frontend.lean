/-! # What interactive front-ends are given

`setup/frontend.py`, without the port itself. -/

namespace ArchInstaller

/-- A value that a setting already has, and the source it came from. -/
structure Inherited (α : Type) where
  value : α
  source : String

structure SummaryRow where
  step : String
  label : String
  value : String
  source : String
  deriving DecidableEq

end ArchInstaller
