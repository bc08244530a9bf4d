import ResourceTable.Sql.Statement

/-!
# Estimates

The cost of a way to reach rows is estimated before it is taken.  An estimate of a
quantity `x` is the integer near to ten times the binary logarithm of `x`, so that a
product is a sum of estimates.

## Main definitions

* `Estimate.ofNat`, `Estimate.plus`.
* `TableDef.rowSize`, `TableDef.keySize`: the sizes of what is read.
-/

namespace ResourceTable.Sql

/-- An estimate of a quantity, on a logarithmic scale. -/
abbrev Estimate := Int

namespace Estimate

/-- The steps between two powers of two. -/
def steps : List Int := [0, 2, 3, 5, 6, 7, 8, 9]

/-- The estimate of a natural number. -/
def ofNat (x : Nat) : Estimate :=
  if x < 2 then 0
  else
    let power := Nat.log2 x
    10 * (power : Int) + steps.getD (x * 8 / Nat.pow 2 power - 8) 0

/-- What is added to the greater of two estimates, by their distance. -/
def increments : List Int :=
  [10, 10, 9, 9, 8, 8, 7, 7, 7, 6, 6, 6, 5, 5, 5, 4, 4, 4, 4, 3, 3, 3, 3, 3, 3, 2, 2, 2, 2, 2, 2, 2]

/-- The estimate of the sum of two quantities. -/
def plus (a b : Estimate) : Estimate :=
  let distance := (a - b).natAbs
  max a b + (if 49 < distance then 0 else increments.getD distance 1)

/-- The estimate of the logarithm of a quantity. -/
def log (a : Estimate) : Estimate := if a ≤ 10 then 0 else ofNat a.toNat - 33

/-- The rows that a table is taken to have. -/
def tableRows : Estimate := 200

/-- Finding one entry of a table or an index. -/
def descent : Estimate := log tableRows

end Estimate

namespace ColumnDef

/-- The size of a value of the column, in units of four bytes. -/
def width (d : ColumnDef) : Nat := if d.affinity = .text then 5 else 1

end ColumnDef

namespace TableDef

/-- The size of the number of a row that stands apart from its columns. -/
def numberWidth (t : TableDef) : Nat :=
  match t.key with
  | .rowNumber _ => 0
  | _ => 1

/-- The size of a row. -/
def rowSize (t : TableDef) : Estimate :=
  .ofNat (4 * t.columns.foldl (fun n d => n + d.width) t.numberWidth)

/-- The size of an entry of the index of the key. -/
def keySize (t : TableDef) : Estimate :=
  match t.columns.find? fun d => t.key = .column d.name with
  | some d => .ofNat (4 * (d.width + 1))
  | none => 0

end TableDef

end ResourceTable.Sql
