import Mathlib.Data.List.Forall2
import MatchingEngine.App.ScenarioLoader

/-!
# The scenario format

The rows of a scenario as the README writes them, without a parser, and what the loader
makes of them. A line is accepted when its first words are those of a row: what is behind
them is not looked at, and a number that does not fit the field of an id is taken for a
name or cut off.
-/

namespace App

open MatchingEngine Text

/-! ## Rows -/

/-- `side price quantity tif`. -/
structure Terms where
  side : List UInt8
  price : List UInt8
  quantity : List UInt8
  tif : List UInt8

/-- What is behind the common fields of a row. -/
inductive Body where
  | new (order : List UInt8) (terms : Terms)
  | cancel (order : List UInt8)
  | replace (oldOrder newOrder : List UInt8) (terms : Terms)

/-- `operation seq instrument client` and what is behind them. -/
structure Row where
  sequence : List UInt8
  instrument : List UInt8
  client : List UInt8
  body : Body

/-- The words of the terms. -/
def Terms.words (terms : Terms) : List (List UInt8) :=
  [terms.side, terms.price, terms.quantity, terms.tif]

/-- The operation, in capital letters. -/
def Body.operation : Body → List UInt8
  | .new _ _ => ascii "NEW"
  | .cancel _ => ascii "CANCEL"
  | .replace _ _ _ => ascii "REPLACE"

/-- The words behind the common fields. -/
def Body.words : Body → List (List UInt8)
  | .new order terms => order :: terms.words
  | .cancel order => [order]
  | .replace oldOrder newOrder terms => oldOrder :: newOrder :: terms.words

/-- The ids of orders. -/
def Body.orders : Body → List (List UInt8)
  | .new order _ => [order]
  | .cancel order => [order]
  | .replace oldOrder newOrder _ => [oldOrder, newOrder]

/-- The words of a line are those of the row, with the operation in any letter case, and
then these. -/
def Row.Spells (row : Row) (words surplus : List (List UInt8)) : Prop :=
  ∃ op, uppercase op = row.body.operation ∧
    words = [op, row.sequence, row.instrument, row.client] ++ (row.body.words ++ surplus)

/-- A decimal `int64`. -/
def IsInt64 (token : List UInt8) : Prop := ∃ z, Denotes token z ∧ -2 ^ 63 ≤ z ∧ z < 2 ^ 63

/-- `BUY` or `SELL` and `GTC` in any letter case, and decimal numbers. -/
structure Terms.WellTyped (terms : Terms) : Prop where
  side : uppercase terms.side = ascii "BUY" ∨ uppercase terms.side = ascii "SELL"
  price : IsInt64 terms.price
  quantity : IsInt64 terms.quantity
  tif : uppercase terms.tif = ascii "GTC"

/-- The terms have their types; ids may be any words. -/
def Body.WellTyped : Body → Prop
  | .new _ terms => terms.WellTyped
  | .cancel _ => True
  | .replace _ _ terms => terms.WellTyped

/-- The sequence number is a decimal `uint64` and the terms have their types. -/
structure Row.WellTyped (row : Row) : Prop where
  sequence : Numeric row.sequence ∧ decimalValue row.sequence < 2 ^ 64
  body : row.body.WellTyped

/-- A number fits a field of so many values. Other words are names. -/
def FitsBelow (limit : ℕ) (token : List UInt8) : Prop :=
  Numeric token → decimalValue token < limit

/-- Every number in the place of an id fits its field. -/
structure Row.Fits (row : Row) : Prop where
  instrument : FitsBelow (2 ^ 32) row.instrument
  ids : ∀ id ∈ row.client :: row.body.orders, FitsBelow (2 ^ 64) id

/-- The words of a line are exactly those of one of the three documented forms, and its
numbers fit their fields. -/
def Documented (words : List (List UInt8)) : Prop :=
  ∃ row : Row, row.Spells words [] ∧ row.WellTyped ∧ row.Fits

/-! ## Commands -/

/-- A number is stored as it is. -/
def StoredAs (token : List UInt8) (value : ℕ) : Prop := Numeric token → value = decimalValue token

/-- The command has the terms. -/
structure Terms.Stored (terms : Terms) (command : OrderCommandRecordV1) : Prop where
  side : command.side =
    if uppercase terms.side = ascii "BUY" then Side.buy.code else Side.sell.code
  price : Denotes terms.price command.priceTicks.toInt
  quantity : Denotes terms.quantity command.quantityLots.toInt

/-- The command is the one of the operation, with the orders and the terms. -/
def Body.Stored (command : OrderCommandRecordV1) : Body → Prop
  | .new order terms =>
    command.commandType = CommandType.newOrder.code ∧
      StoredAs order command.orderId.toNat ∧ terms.Stored command
  | .cancel order =>
    command.commandType = CommandType.cancelOrder.code ∧ StoredAs order command.orderId.toNat
  | .replace oldOrder newOrder terms =>
    command.commandType = CommandType.replaceOrder.code ∧
      StoredAs oldOrder command.orderId.toNat ∧
      StoredAs newOrder command.replacementOrderId.toNat ∧ terms.Stored command

/-- Every number of the row is stored as the integer it denotes. -/
structure Row.Stored (row : Row) (command : OrderCommandRecordV1) : Prop where
  sequence : command.commandSequence.toNat = decimalValue row.sequence
  instrument : StoredAs row.instrument command.instrumentId.toNat
  client : StoredAs row.client command.clientId.toNat
  body : row.body.Stored command

/-- The lines of a text that are not passed over. -/
def rowLines (text : List UInt8) : List (List UInt8) :=
  (lines text).filter fun line => ¬ skipped line

/-- The scenario is loaded exactly when all its lines are documented, one command for each
line in their order, with all numbers as they are. Otherwise there are no commands. -/
structure LoadedExactly (text : List UInt8) (result : ScenarioLoadResult) : Prop where
  accepts : result.ok = true ↔ ∀ line ∈ rowLines text, Documented (words line)
  stored : result.ok = true → List.Forall₂ (fun line command =>
    ∃ row : Row, row.Spells (words line) [] ∧ row.Stored command) (rowLines text) result.commands
  refused : result.ok = false → result.commands = []

/-! ## One line -/

/-- What the loader makes of the words behind the common fields. -/
def Body.command? (command : OrderCommandRecordV1) : Body → Option OrderCommandRecordV1
  | .new order terms =>
    parseTerms { command with
      commandType := CommandType.newOrder.code
      orderId := stableId order } terms.side terms.price terms.quantity terms.tif
  | .cancel order =>
    some { command with
      commandType := CommandType.cancelOrder.code
      orderId := stableId order }
  | .replace oldOrder newOrder terms =>
    parseTerms { command with
      commandType := CommandType.replaceOrder.code
      orderId := stableId oldOrder
      replacementOrderId := stableId newOrder } terms.side terms.price terms.quantity terms.tif

/-- What the loader makes of the words of a row. -/
def Row.command? (row : Row) : Option OrderCommandRecordV1 :=
  (parseU64 row.sequence).bind fun sequence =>
    row.body.command? (commonFields sequence row.instrument row.client)

variable {command c : OrderCommandRecordV1} {line row : List UInt8}

/-- `NEW` is accepted when the next words are an order and terms of the right types. -/
theorem parseNew_ok_iff :
    parseNew command row = .ok c ↔
      ∃ order terms surplus, words row = (Body.new order terms).words ++ surplus ∧
        (Body.new order terms).command? command = some c := by
  constructor
  · intro h
    unfold parseNew at h
    split at h
    · rename_i order side price quantity tif rest hwords
      dsimp only at h
      split at h
      · rename_i hterms
        cases h
        exact ⟨order, ⟨side, price, quantity, tif⟩, words rest, (words_of_nextWords hwords).1,
          hterms⟩
      · cases h
    · cases h
  · rintro ⟨order, terms, surplus, hwords, hcommand⟩
    obtain ⟨rest, htaken, -⟩ := nextWords_of_words hwords
    have htaken' : nextWords 5 row = some ((Body.new order terms).words, rest) := htaken
    unfold parseNew
    rw [htaken']
    dsimp only [Body.command?] at hcommand
    dsimp only [Body.words, Terms.words]
    rw [hcommand]

/-- `CANCEL` is accepted when there is another word. -/
theorem parseCancel_ok_iff :
    parseCancel command row = .ok c ↔
      ∃ order surplus, words row = (Body.cancel order).words ++ surplus ∧
        (Body.cancel order).command? command = some c := by
  constructor
  · intro h
    unfold parseCancel at h
    split at h
    · rename_i order rest hwords
      cases h
      exact ⟨order, words rest, (words_of_nextWords hwords).1, rfl⟩
    · cases h
  · rintro ⟨order, surplus, hwords, hcommand⟩
    obtain ⟨rest, htaken, -⟩ := nextWords_of_words hwords
    have htaken' : nextWords 1 row = some ([order], rest) := htaken
    unfold parseCancel
    rw [htaken']
    exact congrArg Except.ok (Option.some.inj hcommand)

/-- `REPLACE` is accepted when the next words are two orders and terms of the right types. -/
theorem parseReplace_ok_iff :
    parseReplace command row = .ok c ↔
      ∃ oldOrder newOrder terms surplus,
        words row = (Body.replace oldOrder newOrder terms).words ++ surplus ∧
        (Body.replace oldOrder newOrder terms).command? command = some c := by
  constructor
  · intro h
    unfold parseReplace at h
    split at h
    · rename_i oldOrder newOrder side price quantity tif rest hwords
      dsimp only at h
      split at h
      · rename_i hterms
        cases h
        exact ⟨oldOrder, newOrder, ⟨side, price, quantity, tif⟩, words rest,
          (words_of_nextWords hwords).1, hterms⟩
      · cases h
    · cases h
  · rintro ⟨oldOrder, newOrder, terms, surplus, hwords, hcommand⟩
    obtain ⟨rest, htaken, -⟩ := nextWords_of_words hwords
    have htaken' : nextWords 6 row =
        some ((Body.replace oldOrder newOrder terms).words, rest) := htaken
    unfold parseReplace
    rw [htaken']
    dsimp only [Body.command?] at hcommand
    dsimp only [Body.words, Terms.words]
    rw [hcommand]

/-- The operation decides which words are expected. -/
theorem parseOperation_ok_iff {op : List UInt8} :
    parseOperation op command row = .ok c ↔
      ∃ (body : Body) (surplus : List (List UInt8)), op = body.operation ∧
        words row = body.words ++ surplus ∧ body.command? command = some c := by
  unfold parseOperation
  constructor
  · intro h
    split at h
    · rename_i hop
      obtain ⟨order, terms, surplus, hwords, hcommand⟩ := parseNew_ok_iff.mp h
      exact ⟨.new order terms, surplus, hop, hwords, hcommand⟩
    split at h
    · rename_i hop
      obtain ⟨order, surplus, hwords, hcommand⟩ := parseCancel_ok_iff.mp h
      exact ⟨.cancel order, surplus, hop, hwords, hcommand⟩
    split at h
    · rename_i hop
      obtain ⟨oldOrder, newOrder, terms, surplus, hwords, hcommand⟩ := parseReplace_ok_iff.mp h
      exact ⟨.replace oldOrder newOrder terms, surplus, hop, hwords, hcommand⟩
    · cases h
  · rintro ⟨body, surplus, rfl, hwords, hcommand⟩
    cases body with
    | new order terms =>
      rw [Body.operation, if_pos rfl]
      exact parseNew_ok_iff.mpr ⟨order, terms, surplus, hwords, hcommand⟩
    | cancel order =>
      rw [Body.operation, if_neg (by decide), if_pos rfl]
      exact parseCancel_ok_iff.mpr ⟨order, surplus, hwords, hcommand⟩
    | replace oldOrder newOrder terms =>
      rw [Body.operation, if_neg (by decide), if_neg (by decide), if_pos rfl]
      exact parseReplace_ok_iff.mpr ⟨oldOrder, newOrder, terms, surplus, hwords, hcommand⟩

/-- A line is accepted when its first words are those of a row of which the loader makes a
command, whatever is behind them. -/
theorem parseRow_ok_iff :
    parseRow line = .ok c ↔
      ∃ (row : Row) (surplus : List (List UInt8)), row.Spells (words line) surplus ∧
        row.command? = some c := by
  constructor
  · intro h
    unfold parseRow at h
    dsimp only at h
    split at h
    · rename_i op sequence instrument client rest hwords
      split at h
      · rename_i n hsequence
        obtain ⟨body, surplus, hop, hbody, hcommand⟩ := parseOperation_ok_iff.mp h
        refine ⟨⟨sequence, instrument, client, body⟩, surplus, ⟨op, hop, ?_⟩, ?_⟩
        · rw [(words_of_nextWords hwords).1, hbody]
        · exact Option.bind_eq_some_iff.mpr ⟨n, hsequence, hcommand⟩
      · cases h
    · cases h
  · rintro ⟨⟨sequence, instrument, client, body⟩, surplus, ⟨op, hop, hwords⟩, hcommand⟩
    obtain ⟨n, hsequence, hcommand⟩ := Option.bind_eq_some_iff.mp hcommand
    obtain ⟨rest, htaken, hrest⟩ := nextWords_of_words hwords
    have htaken' : nextWords 4 line = some ([op, sequence, instrument, client], rest) := htaken
    unfold parseRow
    rw [htaken']
    dsimp only at hsequence ⊢
    rw [hsequence]
    exact parseOperation_ok_iff.mpr ⟨body, surplus, hop, hrest, hcommand⟩

/-! ## Types and values -/

/-- A `uint64` is read as what it denotes. -/
theorem parseU64_eq_some_iff {token : List UInt8} {n : UInt64} :
    parseU64 token = some n ↔ Numeric token ∧ decimalValue token = n.toNat := by
  unfold parseU64
  constructor
  · intro h
    split at h
    · rename_i value hread
      obtain ⟨hnumeric, hvalue, hlt⟩ := fromCharsUnsigned_eq_some_iff.mp hread
      obtain rfl := Option.some.inj h
      rw [UInt64.toNat_ofNat_of_lt' hlt]
      exact ⟨hnumeric, hvalue⟩
    · cases h
  · rintro ⟨hnumeric, hvalue⟩
    rw [fromCharsUnsigned_eq_some_iff.mpr ⟨hnumeric, hvalue, n.toNat_lt⟩]
    exact congrArg some UInt64.ofNat_toNat

/-- An `int64` is read as what it denotes. -/
theorem parseI64_eq_some_iff {token : List UInt8} {z : Int64} :
    parseI64 token = some z ↔ Denotes token z.toInt := by
  unfold parseI64
  constructor
  · intro h
    split at h
    · rename_i value hread
      obtain ⟨hdenotes, hlow, hhigh⟩ := fromCharsSigned_eq_some_iff.mp hread
      obtain rfl := Option.some.inj h
      rwa [Int64.toInt_ofInt_of_le hlow hhigh]
    · cases h
  · intro hdenotes
    rw [fromCharsSigned_eq_some_iff.mpr ⟨hdenotes, z.le_toInt, z.toInt_lt⟩]
    exact congrArg some (Int64.ofInt_toInt z)

/-- A number that fits is its own id. -/
theorem stableId_stored {token : List UInt8} (hfits : FitsBelow (2 ^ 64) token) :
    StoredAs token (stableId token).toNat := by
  intro hnumeric
  have hvalue : (UInt64.ofNat (decimalValue token)).toNat = decimalValue token :=
    UInt64.toNat_ofNat_of_lt' (hfits hnumeric)
  unfold stableId
  rw [parseU64_eq_some_iff.mpr ⟨hnumeric, hvalue.symm⟩]
  exact hvalue

/-- A number that fits into 32 bits is its own instrument id. -/
theorem instrumentId_stored {token : List UInt8} (hfits : FitsBelow (2 ^ 32) token) :
    StoredAs token (instrumentId token).toNat := by
  intro hnumeric
  have hlt := hfits hnumeric
  have hid := stableId_stored (fun _ => Nat.lt_trans hlt (by decide)) hnumeric
  unfold instrumentId
  split
  · rename_i htest
    rw [htest] at hnumeric
    exact absurd hnumeric (by decide)
  · rw [UInt64.toNat_toUInt32, hid, Nat.mod_eq_of_lt hlt]

/-- The sides are accepted in any letter case. -/
theorem parseSide_eq_some_iff {token : List UInt8} {side : UInt16} :
    parseSide token = some side ↔
      (uppercase token = ascii "BUY" ∨ uppercase token = ascii "SELL") ∧
        side = if uppercase token = ascii "BUY" then Side.buy.code else Side.sell.code := by
  unfold parseSide
  dsimp only
  by_cases hbuy : uppercase token = ascii "BUY"
  · rw [if_pos hbuy, if_pos hbuy]
    simp [hbuy, eq_comm]
  · rw [if_neg hbuy, if_neg hbuy]
    by_cases hsell : uppercase token = ascii "SELL"
    · simp [hsell, eq_comm]
    · simp [hbuy, hsell]

/-- `GTC` is accepted in any letter case. -/
theorem parseTif_eq_some_iff {token : List UInt8} {tif : UInt16} :
    parseTif token = some tif ↔ uppercase token = ascii "GTC" ∧ tif = gtc := by
  unfold parseTif
  by_cases htif : uppercase token = ascii "GTC"
  · simp [htif, eq_comm]
  · simp [htif]

/-- The terms are accepted when they have their types. -/
theorem exists_parseTerms_iff {terms : Terms} :
    (∃ c, parseTerms command terms.side terms.price terms.quantity terms.tif = some c) ↔
      terms.WellTyped := by
  constructor
  · rintro ⟨c, h⟩
    unfold parseTerms at h
    split at h
    · rename_i side price quantity tif hside hprice hquantity htif
      exact ⟨(parseSide_eq_some_iff.mp hside).1,
        ⟨price.toInt, parseI64_eq_some_iff.mp hprice, price.le_toInt, price.toInt_lt⟩,
        ⟨quantity.toInt, parseI64_eq_some_iff.mp hquantity, quantity.le_toInt, quantity.toInt_lt⟩,
        (parseTif_eq_some_iff.mp htif).1⟩
    · cases h
  · rintro ⟨hside, ⟨price, hprice, hlow, hhigh⟩, ⟨quantity, hquantity, hlow', hhigh'⟩, htif⟩
    rw [← Int64.toInt_ofInt_of_le hlow hhigh] at hprice
    rw [← Int64.toInt_ofInt_of_le hlow' hhigh'] at hquantity
    unfold parseTerms
    rw [parseSide_eq_some_iff.mpr ⟨hside, rfl⟩, parseI64_eq_some_iff.mpr hprice,
      parseI64_eq_some_iff.mpr hquantity, parseTif_eq_some_iff.mpr ⟨htif, rfl⟩]
    exact ⟨_, rfl⟩

/-- The terms are stored, and the other fields of the command stay. -/
theorem parseTerms_stored {terms : Terms}
    (h : parseTerms command terms.side terms.price terms.quantity terms.tif = some c) :
    terms.Stored c ∧ c = { command with
      side := c.side
      priceTicks := c.priceTicks
      quantityLots := c.quantityLots
      timeInForce := gtc } := by
  unfold parseTerms at h
  split at h
  · rename_i side price quantity tif hside hprice hquantity htif
    obtain rfl := Option.some.inj h
    exact ⟨⟨(parseSide_eq_some_iff.mp hside).2, parseI64_eq_some_iff.mp hprice,
      parseI64_eq_some_iff.mp hquantity⟩, by rw [(parseTif_eq_some_iff.mp htif).2]⟩
  · cases h

/-- A command is made of the words when they have their types. -/
theorem Body.exists_command?_iff {body : Body} :
    (∃ c, body.command? command = some c) ↔ body.WellTyped := by
  cases body with
  | new order terms => exact exists_parseTerms_iff
  | cancel order => exact iff_of_true ⟨_, rfl⟩ trivial
  | replace oldOrder newOrder terms => exact exists_parseTerms_iff

/-- The words are stored, and the common fields stay. -/
theorem Body.command?_stored {body : Body} (h : body.command? command = some c)
    (hfits : ∀ id ∈ body.orders, FitsBelow (2 ^ 64) id) :
    body.Stored c ∧ c.commandSequence = command.commandSequence ∧
      c.instrumentId = command.instrumentId ∧ c.clientId = command.clientId := by
  cases body with
  | new order terms =>
    obtain ⟨hterms, hcommand⟩ := parseTerms_stored h
    have hid := stableId_stored (hfits order List.mem_cons_self)
    refine ⟨⟨?_, ?_, hterms⟩, ?_, ?_, ?_⟩
    all_goals rw [hcommand]
    exact hid
  | cancel order =>
    obtain rfl := Option.some.inj h
    exact ⟨⟨rfl, stableId_stored (hfits order List.mem_cons_self)⟩, rfl, rfl, rfl⟩
  | replace oldOrder newOrder terms =>
    obtain ⟨hterms, hcommand⟩ := parseTerms_stored h
    have hold := stableId_stored (hfits oldOrder List.mem_cons_self)
    have hnew := stableId_stored (hfits newOrder (List.mem_cons_of_mem _ List.mem_cons_self))
    refine ⟨⟨?_, ?_, ?_, hterms⟩, ?_, ?_, ?_⟩
    all_goals rw [hcommand]
    · exact hold
    · exact hnew

/-- A command is made of a row when its words have their types. -/
theorem Row.exists_command?_iff {row : Row} : (∃ c, row.command? = some c) ↔ row.WellTyped := by
  unfold Row.command?
  constructor
  · rintro ⟨c, h⟩
    obtain ⟨n, hsequence, hcommand⟩ := Option.bind_eq_some_iff.mp h
    obtain ⟨hnumeric, hvalue⟩ := parseU64_eq_some_iff.mp hsequence
    exact ⟨⟨hnumeric, hvalue ▸ n.toNat_lt⟩, Body.exists_command?_iff.mp ⟨c, hcommand⟩⟩
  · rintro ⟨⟨hnumeric, hlt⟩, hbody⟩
    have hvalue : decimalValue row.sequence = (UInt64.ofNat (decimalValue row.sequence)).toNat :=
      (UInt64.toNat_ofNat_of_lt' hlt).symm
    rw [parseU64_eq_some_iff.mpr ⟨hnumeric, hvalue⟩]
    exact Body.exists_command?_iff.mpr hbody

/-- When the numbers of a row fit, the command has them. -/
theorem Row.command?_stored {row : Row} (h : row.command? = some c) (hfits : row.Fits) :
    row.Stored c := by
  obtain ⟨n, hsequence, hcommand⟩ := Option.bind_eq_some_iff.mp h
  obtain ⟨-, hvalue⟩ := parseU64_eq_some_iff.mp hsequence
  obtain ⟨hbody, hcommandSequence, hinstrument, hclient⟩ := Body.command?_stored hcommand
    fun id hid => hfits.ids id (List.mem_cons_of_mem _ hid)
  refine ⟨?_, ?_, ?_, hbody⟩
  · rw [hcommandSequence, hvalue]
    rfl
  · rw [hinstrument]
    exact instrumentId_stored hfits.instrument
  · rw [hclient]
    exact stableId_stored (hfits.ids _ List.mem_cons_self)

/-- The operation and the words behind the common fields determine the body. -/
theorem Body.words_inj {body body' : Body} {surplus surplus' : List (List UInt8)}
    (hoperation : body.operation = body'.operation)
    (hwords : body.words ++ surplus = body'.words ++ surplus') :
    body = body' ∧ surplus = surplus' := by
  cases body with
  | new order terms =>
    cases body' with
    | new order' terms' =>
      obtain ⟨side, price, quantity, tif⟩ := terms
      obtain ⟨side', price', quantity', tif'⟩ := terms'
      simp_all [Body.words, Terms.words]
    | cancel | replace => exact absurd hoperation (by dsimp only [Body.operation]; decide)
  | cancel order =>
    cases body' with
    | cancel order' => simp_all [Body.words]
    | new | replace => exact absurd hoperation (by dsimp only [Body.operation]; decide)
  | replace oldOrder newOrder terms =>
    cases body' with
    | replace oldOrder' newOrder' terms' =>
      obtain ⟨side, price, quantity, tif⟩ := terms
      obtain ⟨side', price', quantity', tif'⟩ := terms'
      simp_all [Body.words, Terms.words]
    | new | cancel => exact absurd hoperation (by dsimp only [Body.operation]; decide)

/-- A line spells at most one row. -/
theorem Row.Spells.unique {row row' : Row} {spelled surplus surplus' : List (List UInt8)}
    (h : row.Spells spelled surplus) (h' : row'.Spells spelled surplus') :
    row = row' ∧ surplus = surplus' := by
  obtain ⟨sequence, instrument, client, body⟩ := row
  obtain ⟨sequence', instrument', client', body'⟩ := row'
  obtain ⟨op, hop, rfl⟩ := h
  obtain ⟨op', hop', hspelled⟩ := h'
  obtain ⟨hcommon, hbody⟩ := List.append_inj hspelled rfl
  simp only [List.cons.injEq, and_true] at hcommon
  obtain ⟨rfl, rfl, rfl, rfl⟩ := hcommon
  obtain ⟨rfl, rfl⟩ := Body.words_inj (hop.symm.trans hop') hbody
  exact ⟨rfl, rfl⟩

/-! ## All lines -/

/-- The first words of a line are those of a row with words of the right types. -/
def BeginsWithRow (spelled : List (List UInt8)) : Prop :=
  ∃ (row : Row) (surplus : List (List UInt8)), row.Spells spelled surplus ∧ row.WellTyped

/-- Exactly these lines are accepted. -/
theorem exists_parseRow_iff : (∃ c, parseRow line = .ok c) ↔ BeginsWithRow (words line) := by
  constructor
  · rintro ⟨c, h⟩
    obtain ⟨row, surplus, hspells, hcommand⟩ := parseRow_ok_iff.mp h
    exact ⟨row, surplus, hspells, Row.exists_command?_iff.mp ⟨c, hcommand⟩⟩
  · rintro ⟨row, surplus, hspells, htyped⟩
    obtain ⟨c, hcommand⟩ := Row.exists_command?_iff.mpr htyped
    exact ⟨c, parseRow_ok_iff.mpr ⟨row, surplus, hspells, hcommand⟩⟩

/-- What the loop makes of the rest of a file: it goes on as long as lines are accepted and
appends one command for each of them. -/
structure Loaded (text : List UInt8) (before : List OrderCommandRecordV1)
    (result : ScenarioLoadResult) : Prop where
  accepts : result.ok = true ↔ ∀ line ∈ rowLines text, BeginsWithRow (words line)
  commands : result.ok = true → ∃ commands, result.commands = before ++ commands ∧
    List.Forall₂ (fun line c => parseRow line = .ok c) (rowLines text) commands
  refused : result.ok = false → result.commands = []

/-- At the end of the file no lines are left. -/
theorem rowLines_of_end {text : List UInt8} (hend : getline text = none) : rowLines text = [] := by
  rw [rowLines, lines_of_getline_none hend, List.filter_nil]

/-- A line that is passed over does not count. -/
theorem rowLines_of_skipped {text rest : List UInt8} (hline : getline text = some (line, rest))
    (hskipped : skipped line) : rowLines text = rowLines rest := by
  rw [rowLines, (lines_of_getline hline).1, List.filter_cons_of_neg (by simpa using hskipped),
    rowLines]

/-- The lines that count start with one that is not passed over. -/
theorem rowLines_of_getline {text rest : List UInt8} (hline : getline text = some (line, rest))
    (hcounts : ¬ skipped line) : rowLines text = line :: rowLines rest := by
  rw [rowLines, (lines_of_getline hline).1, List.filter_cons_of_pos (by simpa using hcounts),
    rowLines]

namespace Loaded

variable {text rest : List UInt8} {before : List OrderCommandRecordV1}
  {result : ScenarioLoadResult}

/-- At the end of the file the result is complete. -/
theorem done (hend : getline text = none) (hok : result.ok = true) :
    Loaded text result.commands result := by
  refine ⟨iff_of_true hok ?_, fun _ => ⟨[], (List.append_nil _).symm, ?_⟩, ?_⟩
  · rw [rowLines_of_end hend]
    exact fun _ h => absurd h List.not_mem_nil
  · rw [rowLines_of_end hend]
    exact .nil
  · rw [hok]
    exact fun h => by cases h

/-- A line that is passed over changes nothing. -/
theorem skip (hline : getline text = some (line, rest)) (hskipped : skipped line)
    (h : Loaded rest before result) : Loaded text before result := by
  have hrows := rowLines_of_skipped hline hskipped
  exact ⟨hrows ▸ h.accepts, hrows ▸ h.commands, h.refused⟩

/-- A line that is not accepted ends the loop, without commands. -/
theorem refuse (hline : getline text = some (line, rest)) (hcounts : ¬ skipped line)
    {message : List UInt8} (hrow : parseRow line = .error message) (error : List UInt8) :
    Loaded text before (failedScenario error) := by
  have hrows := rowLines_of_getline hline hcounts
  have hrefused : ¬ BeginsWithRow (words line) := by
    rw [← exists_parseRow_iff, hrow]
    rintro ⟨c, h⟩
    cases h
  refine ⟨iff_of_false Bool.false_ne_true fun h => ?_, fun h => absurd h Bool.false_ne_true,
    fun _ => rfl⟩
  exact hrefused (h line (hrows ▸ List.mem_cons_self))

/-- An accepted line appends its command, and the loop goes on. -/
theorem accept (hline : getline text = some (line, rest)) (hcounts : ¬ skipped line)
    (hrow : parseRow line = .ok command) (h : Loaded rest (before ++ [command]) result) :
    Loaded text before result := by
  have hrows := rowLines_of_getline hline hcounts
  have hbegins : BeginsWithRow (words line) := exists_parseRow_iff.mp ⟨command, hrow⟩
  refine ⟨?_, fun hok => ?_, h.refused⟩
  · rw [h.accepts, hrows, List.forall_mem_cons]
    exact (and_iff_right hbegins).symm
  · obtain ⟨commands, happended, hall⟩ := h.commands hok
    refine ⟨command :: commands, ?_, ?_⟩
    · rw [happended, List.append_assoc, List.singleton_append]
    · rw [hrows]
      exact .cons hrow hall

end Loaded

/-- The loop goes through the lines of the file. -/
theorem loadLines_loaded {rounds : ℕ} {text : List UInt8} (hrounds : text.length < rounds)
    (lineNumber : ℕ) {result : ScenarioLoadResult} (hok : result.ok = true) :
    Loaded text result.commands (loadLines rounds text lineNumber result) := by
  induction rounds generalizing text lineNumber result with
  | zero => exact absurd hrounds (Nat.not_lt_zero _)
  | succ rounds ih =>
    unfold loadLines
    cases hline : getline text with
    | none => exact .done hline hok
    | some taken =>
      obtain ⟨line, rest⟩ := taken
      have hrest : rest.length < rounds :=
        Nat.lt_of_lt_of_le (lines_of_getline hline).2 (Nat.le_of_lt_succ hrounds)
      dsimp only
      by_cases hskipped : skipped line
      · rw [if_pos hskipped]
        exact (ih hrest (lineNumber + 1) hok).skip hline hskipped
      rw [if_neg hskipped]
      cases hrow : parseRow line with
      | error message => exact .refuse hline hskipped hrow _
      | ok command =>
        have hloop := @ih rest hrest (lineNumber + 1)
          { result with commands := result.commands ++ [command] } hok
        exact hloop.accept hline hskipped hrow

/-- The scenario is loaded as documented exactly when one of its lines does not even begin
with a documented row, or none has words behind its row, a number of 2^32 or more for an
instrument or one of 2^64 or more for a client or an order. -/
theorem scenario_loaded_exactly_iff (path text : List UInt8) :
    LoadedExactly text (loadScenario path (some text)) ↔
      ((∀ line ∈ rowLines text, BeginsWithRow (words line)) →
        ∀ line ∈ rowLines text, ∀ (row : Row) (surplus : List (List UInt8)),
          row.Spells (words line) surplus → surplus = [] ∧ row.Fits) := by
  obtain ⟨haccepts, hcommands, hrefused⟩ :=
    loadLines_loaded (Nat.lt_succ_self text.length) 0 (show loadedScenario.ok = true from rfl)
  constructor
  · intro hexact hbegins line hline row surplus hspells
    obtain ⟨row', hspells', -, hfits⟩ := hexact.accepts.mp (haccepts.mpr hbegins) line hline
    obtain ⟨rfl, rfl⟩ := hspells.unique hspells'
    exact ⟨rfl, hfits⟩
  · intro hclean
    have hrow : ∀ line ∈ rowLines text, (∀ line ∈ rowLines text, BeginsWithRow (words line)) →
        ∃ row : Row, row.Spells (words line) [] ∧ row.WellTyped ∧ row.Fits := by
      intro line hline hbegins
      obtain ⟨row, surplus, hspells, htyped⟩ := hbegins line hline
      obtain ⟨rfl, hfits⟩ := hclean hbegins line hline row surplus hspells
      exact ⟨row, hspells, htyped, hfits⟩
    refine ⟨⟨fun hok line hline => hrow line hline (haccepts.mp hok), fun hdocumented => ?_⟩,
      fun hok => ?_, hrefused⟩
    · refine haccepts.mpr fun line hline => ?_
      obtain ⟨row, hspells, htyped, -⟩ := hdocumented line hline
      exact ⟨row, [], hspells, htyped⟩
    · obtain ⟨commands, happended, hall⟩ := hcommands hok
      have hboth := (List.forall₂_and_left _ _).mpr ⟨fun line hline =>
        hrow line hline (haccepts.mp hok), hall⟩
      rw [show (loadScenario path (some text)).commands = commands from happended]
      refine hboth.imp ?_
      rintro line c ⟨⟨row, hspells, -, hfits⟩, hparse⟩
      obtain ⟨row', surplus, hspells', hcommand⟩ := parseRow_ok_iff.mp hparse
      obtain ⟨rfl, -⟩ := hspells'.unique hspells
      exact ⟨row', hspells, Row.command?_stored hcommand hfits⟩

/-- A word behind a row: the line is not documented, and it is loaded. -/
theorem scenario_with_surplus_loaded :
    ¬ LoadedExactly (ascii "CANCEL 1 TEST 5 6 junk")
      (loadScenario [] (some (ascii "CANCEL 1 TEST 5 6 junk"))) := by
  intro hexact
  have hspells : Row.Spells ⟨ascii "1", ascii "TEST", ascii "5", .cancel (ascii "6")⟩
      (words (ascii "CANCEL 1 TEST 5 6 junk")) [ascii "junk"] :=
    ⟨ascii "CANCEL", by decide, by decide⟩
  obtain ⟨row, hspells', -, -⟩ := hexact.accepts.mp (by decide) _ List.mem_cons_self
  obtain ⟨-, hsurplus⟩ := hspells.unique hspells'
  exact absurd hsurplus (List.cons_ne_nil _ _)

/-- The low 32 bits of a number are taken for an instrument. -/
example : (loadScenario [] (some (ascii "CANCEL 1 4294967297 5 6"))).commands.map
    OrderCommandRecordV1.instrumentId = [1] := by decide

/-- A number above the range of an id is taken for a name. -/
example : (loadScenario [] (some (ascii "CANCEL 1 TEST 5 18446744073709551616"))).ok = true := by
  decide

end App
