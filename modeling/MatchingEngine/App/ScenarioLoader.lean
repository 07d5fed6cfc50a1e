import MatchingEngine.Domain
import MatchingEngine.Library.Text

/-!
# Loading a scenario

`app/scenario_loader.hpp` and `.cpp`. Strings are the bytes they consist of. What a path
leads to is an argument: the text of the file, or nothing when it cannot be opened.
-/

namespace App

open MatchingEngine Text

/-- `test_instrument_id`. -/
def testInstrumentId : UInt32 := 77

/-- `core::TimeInForce::Gtc`. -/
def gtc : UInt16 := 1

/-- `uppercase`. -/
def uppercase (value : List UInt8) : List UInt8 :=
  value.map fun ch => if 97 ≤ ch ∧ ch ≤ 122 then ch - 97 + 65 else ch

/-- `parse_u64`. -/
def parseU64 (text : List UInt8) : Option UInt64 :=
  match fromCharsUnsigned text with
  | some (value, []) => some (.ofNat value)
  | _ => none

/-- `parse_i64`. -/
def parseI64 (text : List UInt8) : Option Int64 :=
  match fromCharsSigned text with
  | some (value, []) => some (.ofInt value)
  | _ => none

/-- `stable_id`: a number stands for itself and any other token for its hash. -/
def stableId (token : List UInt8) : UInt64 :=
  match parseU64 token with
  | some numeric => numeric
  | none =>
    let hash := token.foldl (fun hash ch => (hash ^^^ ch.toUInt64) * 1099511628211)
      1469598103934665603
    if hash = 0 then 1 else hash

/-- `instrument_id`. The cast keeps the low 32 bits. -/
def instrumentId (token : List UInt8) : UInt32 :=
  if token = ascii "TEST" then testInstrumentId else (stableId token).toUInt32

/-- `parse_side`. -/
def parseSide (token : List UInt8) : Option UInt16 :=
  let side := uppercase token
  if side = ascii "BUY" then some Side.buy.code
  else if side = ascii "SELL" then some Side.sell.code
  else none

/-- `parse_tif`. -/
def parseTif (token : List UInt8) : Option UInt16 :=
  if uppercase token = ascii "GTC" then some gtc else none

/-- `line_error`. -/
def lineError (lineNumber : ℕ) (message : List UInt8) : List UInt8 :=
  ascii "line " ++ ascii (toString lineNumber) ++ ascii ": " ++ message

/-- `ScenarioLoadResult`. -/
structure ScenarioLoadResult where
  ok : Bool := false
  error : List UInt8 := []
  commands : List OrderCommandRecordV1 := []
  deriving DecidableEq

/-- `loaded_scenario`. -/
def loadedScenario : ScenarioLoadResult := { ok := true }

/-- `failed_scenario`. -/
def failedScenario (error : List UInt8) : ScenarioLoadResult := { ok := false, error := error }

/-! ## One line -/

/-- The fields that are parsed in the same way for `NEW` and `REPLACE`. -/
def parseTerms (command : OrderCommandRecordV1)
    (sideToken priceToken quantityToken tifToken : List UInt8) : Option OrderCommandRecordV1 :=
  match parseSide sideToken, parseI64 priceToken, parseI64 quantityToken, parseTif tifToken with
  | some side, some price, some quantity, some tif =>
    some { command with
      side := side
      priceTicks := price
      quantityLots := quantity
      timeInForce := tif }
  | _, _, _, _ => none

/-- The branch of `load_scenario` for `NEW`. -/
def parseNew (command : OrderCommandRecordV1) (row : List UInt8) :
    Except (List UInt8) OrderCommandRecordV1 :=
  match nextWords 5 row with
  | some ([orderToken, sideToken, priceToken, quantityToken, tifToken], _) =>
    let command := { command with
      commandType := CommandType.newOrder.code
      orderId := stableId orderToken }
    match parseTerms command sideToken priceToken quantityToken tifToken with
    | some command => .ok command
    | none => .error (ascii "invalid NEW field")
  | _ => .error (ascii "expected NEW seq instrument client order side price quantity tif")

/-- The branch of `load_scenario` for `CANCEL`. -/
def parseCancel (command : OrderCommandRecordV1) (row : List UInt8) :
    Except (List UInt8) OrderCommandRecordV1 :=
  match nextWords 1 row with
  | some ([orderToken], _) =>
    .ok { command with
      commandType := CommandType.cancelOrder.code
      orderId := stableId orderToken }
  | _ => .error (ascii "expected CANCEL seq instrument client order")

/-- The branch of `load_scenario` for `REPLACE`. -/
def parseReplace (command : OrderCommandRecordV1) (row : List UInt8) :
    Except (List UInt8) OrderCommandRecordV1 :=
  match nextWords 6 row with
  | some ([oldOrderToken, newOrderToken, sideToken, priceToken, quantityToken, tifToken], _) =>
    let command := { command with
      commandType := CommandType.replaceOrder.code
      orderId := stableId oldOrderToken
      replacementOrderId := stableId newOrderToken }
    match parseTerms command sideToken priceToken quantityToken tifToken with
    | some command => .ok command
    | none => .error (ascii "invalid REPLACE field")
  | _ =>
    .error (ascii
      "expected REPLACE seq instrument client old_order new_order side price quantity tif")

/-- What is behind the common fields, by operation. -/
def parseOperation (op : List UInt8) (command : OrderCommandRecordV1) (row : List UInt8) :
    Except (List UInt8) OrderCommandRecordV1 :=
  if op = ascii "NEW" then parseNew command row
  else if op = ascii "CANCEL" then parseCancel command row
  else if op = ascii "REPLACE" then parseReplace command row
  else .error (ascii "unknown operation: " ++ op)

/-- The fields every command has. -/
def commonFields (sequence : UInt64) (instrumentToken clientToken : List UInt8) :
    OrderCommandRecordV1 where
  commandSequence := sequence
  sourceIngressEpoch := 1
  sourceIngressSequence := sequence
  instrumentId := instrumentId instrumentToken
  clientId := stableId clientToken
  timeInForce := gtc

/-- The body of the loop of `load_scenario` for a line that is not skipped, with the
message of the error. After a failed `row >> op` the next extractions fail as well. -/
def parseRow (line : List UInt8) : Except (List UInt8) OrderCommandRecordV1 :=
  let expected := ascii "expected operation, sequence, instrument, and client"
  match nextWords 4 line with
  | some ([op, sequenceToken, instrumentToken, clientToken], row) =>
    match parseU64 sequenceToken with
    | some sequence =>
      parseOperation (uppercase op) (commonFields sequence instrumentToken clientToken) row
    | none => .error expected
  | _ => .error expected

/-! ## All lines -/

/-- A line that is passed over: it is empty or a comment. -/
def skipped (line : List UInt8) : Prop := line = [] ∨ line.head? = some 35

instance (line : List UInt8) : Decidable (skipped line) := inferInstanceAs (Decidable (_ ∨ _))

/-- The loop of `load_scenario`, with a bound on the number of lines. -/
def loadLines : ℕ → List UInt8 → ℕ → ScenarioLoadResult → ScenarioLoadResult
  | 0, _, _, result => result
  | rounds + 1, input, lineNumber, result =>
    match getline input with
    | none => result
    | some (line, input) =>
      let lineNumber := lineNumber + 1
      if skipped line then loadLines rounds input lineNumber result
      else
        match parseRow line with
        | .error message => failedScenario (lineError lineNumber message)
        | .ok command =>
          loadLines rounds input lineNumber
            { result with commands := result.commands ++ [command] }

/-- `load_scenario`. Every line takes up space in the file, so there are fewer lines than
the bound. -/
def loadScenario (path : List UInt8) (input : Option (List UInt8)) : ScenarioLoadResult :=
  match input with
  | none => failedScenario (ascii "cannot open scenario file: " ++ path)
  | some input => loadLines (input.length + 1) input 0 loadedScenario

end App
