import TableScan.Record

/-! Two small models to try scans on. -/

namespace TableScan.Sample

def user : Model where
  name := "User"
  table := some "users"
  fields := [
    .plain "id" .text none,
    .plain "name" .text (some (.text "")),
    .plain "age" .int (some (.int 0)),
    .plain "score" (.optional .float) (some .null),
    .plain "tags" (.collection .set .text) (some (.set [])),
    .plain "created_at" (.optional .datetime) (some .null),
    { Field.plain "email_address" (.optional .text) (some .null) with
      externalName := some "email" }]
  validatesAssignment := false
  frozen := false

def tenant : Model where
  name := "Tenant"
  table := none
  fields := [.plain "id" .text none]
  validatesAssignment := false
  frozen := false

end TableScan.Sample
