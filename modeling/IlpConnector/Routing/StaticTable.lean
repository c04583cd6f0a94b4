import IlpConnector.Settings

/-!
# Routes set by the operator

A route stays until it is removed or another one is added for the same prefix; the table lists its
routes in the order they were added last.
-/

namespace IlpConnector

structure StaticTable where
  routes : List StaticRoute := []

namespace StaticTable

/-- Adds a route in place of the one for the same prefix. -/
def add (t : StaticTable) (r : StaticRoute) : StaticTable :=
  ⟨t.routes.filter (·.target ≠ r.target) ++ [r]⟩

def ofRoutes (routes : List StaticRoute) : StaticTable :=
  routes.foldl add {}

/-- Removes the route for a prefix, and tells which one it was. -/
def remove (t : StaticTable) (target : AddressPrefix) : Option StaticRoute × StaticTable :=
  (t.routes.find? (·.target = target), ⟨t.routes.eraseP (·.target = target)⟩)

/-- The account that leads to an address. -/
def resolve (t : StaticTable) (a : Address) : Option AccountId :=
  (deepestMatch StaticRoute.target a t.routes).map StaticRoute.account

end StaticTable

end IlpConnector
