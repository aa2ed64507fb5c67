import Degenbot.Algorithm.Simulation

/-! # Pool snapshots as JSON

`to_v3_snapshot_json` and `to_curve_snapshot_json` of the Python pools, and the derived
`Deserialize` of `V3Snapshot` and `CurveSnapshot` in `simulation/v3.rs` and
`simulation/curve.rs`. Documents are trees; an object keeps its members in the order in
which they are written. -/

namespace Degenbot

inductive Json where
  | bool (value : Bool)
  | number (value : ℤ)
  | string (value : String)
  | array (items : List Json)
  | object (members : List (String × Json))

/-! ## Exporters -/

def UniswapV3Pool.toV3SnapshotJson (pool : UniswapV3Pool)
    (stateOverride : Option OverrideState) : List (String × Json) :=
  let s := pool.startState stateOverride
  [("sqrtPriceX96", .string (toString s.sqrtPriceX96)),
    ("liquidity", .string (toString s.liquidity)),
    ("tick", .number s.tick),
    ("feeBps", .number pool.fee),
    ("tickSpacing", .number pool.tickSpacing),
    ("tickBitmap", .object (s.tickBitmap.entries.map fun entry =>
      (toString entry.1, .string (toString entry.2.bitmap)))),
    ("tickNetLiquidity", .object (s.tickData.entries.map fun entry =>
      (toString entry.1, .string (toString entry.2.liquidityNet))))]

/-- The part of `CurveStableswapPool` that is exported: the balances of the current state,
`a_coefficient` and the fee over `FEE_DENOMINATOR`. -/
structure CurveStableswapPool where
  balances : List ℕ
  aCoefficient : ℕ
  fee : ℕ

namespace CurveStableswapPool

def feeDenominator : ℕ := 10 ^ 10

/-- An override is the balances of its state. -/
def toCurveSnapshotJson (pool : CurveStableswapPool) (stateOverride : Option (List ℕ)) :
    List (String × Json) :=
  let balances := stateOverride.getD pool.balances
  [("balances", .array (balances.map fun b => .string (toString b))),
    ("A", .string (toString pool.aCoefficient)),
    ("feeBps", .number pool.fee),
    ("isMeta", .bool false)]

end CurveStableswapPool

/-! ## Deserialisation -/

inductive DeError where
  | invalidType (expected : String)
  | invalidValue (expected : String)
  | missingField (field : String)
  | duplicateField (field : String)
  | invalidNumber
  | numberOutOfRange
  | custom (msg : String)
deriving DecidableEq, Repr

/-- The parsers that come from other crates: the visitor of `U256` and the integer keys of
a JSON map. -/
structure Parsers where
  u256 : Json → Except DeError ℕ
  mapKey : String → Except DeError ℤ

/-- The integers of up to 64 bits are read from JSON numbers only. -/
def deserializeInt (expected : String) (least greatest : ℤ) : Json → Except DeError ℤ
  | .number value =>
      if least ≤ value ∧ value ≤ greatest then .ok value else .error (.invalidValue expected)
  | _ => .error (.invalidType expected)

/-- The parser scans the digits of a 128-bit integer itself. -/
def deserializeInt128 (least greatest : ℤ) : Json → Except DeError ℤ
  | .number value =>
      if least ≤ value ∧ value ≤ greatest then .ok value else .error .numberOutOfRange
  | _ => .error .invalidNumber

def deserializeU32 : Json → Except DeError ℤ := deserializeInt "u32" 0 (2 ^ 32 - 1)
def deserializeU128 : Json → Except DeError ℤ := deserializeInt128 0 (2 ^ 128 - 1)
def deserializeI32 : Json → Except DeError ℤ := deserializeInt "i32" (-2 ^ 31) (2 ^ 31 - 1)
def deserializeI128 : Json → Except DeError ℤ := deserializeInt128 (-2 ^ 127) (2 ^ 127 - 1)

def deserializeBool : Json → Except DeError Bool
  | .bool value => .ok value
  | _ => .error (.invalidType "a boolean")

def deserializeSeq {α : Type} (item : Json → Except DeError α) : Json → Except DeError (List α)
  | .array items => items.mapM item
  | _ => .error (.invalidType "a sequence")

/-- A map with integer keys in a range; a repeated key keeps its last value. -/
def deserializeMap {α : Type} (parsers : Parsers) (expected : String) (least greatest : ℤ)
    (item : Json → Except DeError α) : Json → Except DeError (Dict ℤ α)
  | .object members => members.foldlM (fun map (key, value) => do
      let key ← parsers.mapKey key
      if least ≤ key ∧ key ≤ greatest then do
        let value ← item value
        .ok (map.insert key value)
      else .error (.invalidValue expected)) ∅
  | _ => .error (.invalidType "a map")

/-- One arm of the derived `visit_map`. -/
def setField {α : Type} (field : String) (slot : Option α) (value : Except DeError α) :
    Except DeError (Option α) :=
  if slot.isSome then .error (.duplicateField field) else value.map some

def required {α : Type} (field : String) (slot : Option α) : Except DeError α :=
  match slot with
  | some value => .ok value
  | none => .error (.missingField field)

/-! ### `V3Snapshot` -/

structure V3Snapshot where
  sqrtPriceX96 : ℕ
  liquidity : ℤ
  tick : ℤ
  feeBps : ℤ
  tickSpacing : ℤ
  tickBitmap : Dict ℤ ℕ
  tickNetLiquidity : Dict ℤ ℤ

namespace V3Snapshot

/-- The fields read so far. -/
structure Fields where
  sqrtPriceX96 : Option ℕ := none
  liquidity : Option ℤ := none
  tick : Option ℤ := none
  feeBps : Option ℤ := none
  tickSpacing : Option ℤ := none
  tickBitmap : Option (Dict ℤ ℕ) := none
  tickNetLiquidity : Option (Dict ℤ ℤ) := none

/-- The fields carry no `rename`; a key that is not a field is skipped. -/
def visitMember (parsers : Parsers) (fields : Fields) (member : String × Json) :
    Except DeError Fields :=
  let (key, value) := member
  if key = "sqrt_price_x96" then do
    let slot ← setField key fields.sqrtPriceX96 (parsers.u256 value)
    .ok { fields with sqrtPriceX96 := slot }
  else if key = "liquidity" then do
    let slot ← setField key fields.liquidity (deserializeU128 value)
    .ok { fields with liquidity := slot }
  else if key = "tick" then do
    let slot ← setField key fields.tick (deserializeI32 value)
    .ok { fields with tick := slot }
  else if key = "fee_bps" then do
    let slot ← setField key fields.feeBps (deserializeU32 value)
    .ok { fields with feeBps := slot }
  else if key = "tick_spacing" then do
    let slot ← setField key fields.tickSpacing (deserializeI32 value)
    .ok { fields with tickSpacing := slot }
  else if key = "tick_bitmap" then do
    let slot ← setField key fields.tickBitmap
      (deserializeMap parsers "i16" (-2 ^ 15) (2 ^ 15 - 1) parsers.u256 value)
    .ok { fields with tickBitmap := slot }
  else if key = "tick_net_liquidity" then do
    let slot ← setField key fields.tickNetLiquidity
      (deserializeMap parsers "i32" (-2 ^ 31) (2 ^ 31 - 1) deserializeI128 value)
    .ok { fields with tickNetLiquidity := slot }
  else .ok fields

def visitMap (parsers : Parsers) (members : List (String × Json)) :
    Except DeError V3Snapshot := do
  let fields ← members.foldlM (visitMember parsers) {}
  let sqrtPriceX96 ← required "sqrt_price_x96" fields.sqrtPriceX96
  let liquidity ← required "liquidity" fields.liquidity
  let tick ← required "tick" fields.tick
  let feeBps ← required "fee_bps" fields.feeBps
  let tickSpacing ← required "tick_spacing" fields.tickSpacing
  let tickBitmap ← required "tick_bitmap" fields.tickBitmap
  let tickNetLiquidity ← required "tick_net_liquidity" fields.tickNetLiquidity
  .ok ⟨sqrtPriceX96, liquidity, tick, feeBps, tickSpacing, tickBitmap, tickNetLiquidity⟩

/-- `fee_bps.checked_mul(100)` of `amount_out_with_state`. -/
def feePips (snapshot : V3Snapshot) : Option ℤ :=
  if snapshot.feeBps * 100 < 2 ^ 32 then some (snapshot.feeBps * 100) else none

end V3Snapshot

/-! ### `CurveSnapshot` -/

structure CurveSnapshot where
  balances : List ℕ
  A : ℕ
  feeBps : ℤ
  isMeta : Bool

namespace CurveSnapshot

structure Fields where
  balances : Option (List ℕ) := none
  A : Option ℕ := none
  feeBps : Option ℤ := none
  isMeta : Option Bool := none

def visitMember (parsers : Parsers) (fields : Fields) (member : String × Json) :
    Except DeError Fields :=
  let (key, value) := member
  if key = "balances" then do
    let slot ← setField key fields.balances (deserializeSeq parsers.u256 value)
    .ok { fields with balances := slot }
  else if key = "A" then do
    let slot ← setField key fields.A (parsers.u256 value)
    .ok { fields with A := slot }
  else if key = "fee_bps" then do
    let slot ← setField key fields.feeBps (deserializeU32 value)
    .ok { fields with feeBps := slot }
  else if key = "is_meta" then do
    let slot ← setField key fields.isMeta (deserializeBool value)
    .ok { fields with isMeta := slot }
  else .ok fields

def visitMap (parsers : Parsers) (members : List (String × Json)) :
    Except DeError CurveSnapshot := do
  let fields ← members.foldlM (visitMember parsers) {}
  let balances ← required "balances" fields.balances
  let A ← required "A" fields.A
  let feeBps ← required "fee_bps" fields.feeBps
  let isMeta ← required "is_meta" fields.isMeta
  .ok ⟨balances, A, feeBps, isMeta⟩

/-- The fee rate of `amount_out`. -/
def feeRate (snapshot : CurveSnapshot) : ℚ := snapshot.feeBps / 10000

end CurveSnapshot

end Degenbot
