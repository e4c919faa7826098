import CallCatalog.Catalog.Build
import CallCatalog.Declaration.Extract

/-!
Collecting contributions from descriptions. A description is put into a copy of the store, so one
that turns out to be wrong leaves nothing behind.
-/

namespace CallCatalog.CatalogBuilder

/-- Extracts a description into the store and adds what it contributes, or says what is wrong with
it. -/
def extract (b : CatalogBuilder) (s : Store) (d : ModelDecl) :
    Except DeclarationError Unit × CatalogBuilder × Store :=
  match d.extract s with
  | .ok (contribution, staged) => (.ok (), b.merge contribution, staged)
  | .error e => (.error e, b, s)

end CallCatalog.CatalogBuilder
