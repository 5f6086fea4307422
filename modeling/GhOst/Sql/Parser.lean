import GhOst.Infra.Regexp
import GhOst.Infra.Strconv
import GhOst.Infra.Strings

/-!
# What is read off the `ALTER` statement (`go/sql/parser.go`)

A Go map is a list of pairs with distinct keys, a `map[string]bool` the list of its keys. `\x60` is
the backtick and `\x27` the single quote.
-/

namespace GhOst.Sql

open Infra Infra.Regexp

/-! ## The expressions -/

/-- `(?i)\bword\s+` before another expression. -/
def keyword (word : String) (t : Regexp) : Regexp :=
  .seq .wordBoundary <| .seq (caseless word.toList) <| .seq (plus isSpace) t

/-- `\S`. -/
def nonSpace (c : Char) : Bool := !isSpace c

/-- `(column\s+|)`. -/
def optionalColumn : Regexp :=
  .group 1 (.alt (.seq (caseless "column".toList) (plus isSpace)) .empty)

/-- `('[^']*')`. -/
def sanitizeQuotesRegexp : Regexp :=
  .group 1 <| .seq (literal ['\x27']) <| .seq (.many (· ≠ '\x27')) (literal ['\x27'])

def renameColumnRegexp : Regexp :=
  keyword "change" <| .seq optionalColumn <| .seq (.group 2 (plus nonSpace)) <|
    .seq (plus isSpace) <| .seq (.group 3 (plus nonSpace)) (plus isSpace)

def dropColumnRegexp : Regexp :=
  keyword "drop" <| .seq optionalColumn <| .seq (.group 2 (plus nonSpace)) .endOfText

def renameTableRegexp : Regexp :=
  keyword "rename" <|
    .seq (.group 1 (.alt (caseless "to".toList) (caseless "as".toList))) (plus isSpace)

def autoIncrementRegexp : Regexp :=
  .seq .wordBoundary <| .seq (caseless "auto_increment".toList) <| .seq (.many isSpace) <|
    .seq (literal ['=']) <| .seq (.many isSpace) (.group 1 (plus Char.isDigit))

/-- `\balter\s+table\s+` before another expression. -/
def alterTable (t : Regexp) : Regexp :=
  keyword "alter" <| .seq (caseless "table".toList) <| .seq (plus isSpace) t

/-- A name between backticks, kept as submatch `i`. -/
def backquoted (i : Nat) : Regexp :=
  .seq (literal ['\x60']) <| .seq (.group i (plus (· ≠ '\x60'))) (literal ['\x60'])

/-- `\s+(.*$)`. -/
def options (i : Nat) : Regexp :=
  .seq (plus isSpace) (.group i (.seq (.many (· ≠ '\n')) .endOfText))

def alterTableExplicitSchemaTableRegexps : List Regexp :=
  [ alterTable <| .seq (backquoted 1) <| .seq (literal ['.']) <| .seq (backquoted 2) (options 3),
    alterTable <| .seq (backquoted 1) <| .seq (literal ['.']) <|
      .seq (.group 2 (plus nonSpace)) (options 3),
    alterTable <| .seq (.group 1 (plus nonSpace)) <| .seq (literal ['.']) <|
      .seq (backquoted 2) (options 3),
    alterTable <| .seq (.group 1 (plus nonSpace)) <| .seq (literal ['.']) <|
      .seq (.group 2 (plus nonSpace)) (options 3) ]

def alterTableExplicitTableRegexps : List Regexp :=
  [ alterTable <| .seq (backquoted 1) (options 2),
    alterTable <| .seq (.group 1 (plus nonSpace)) (options 2) ]

/-! ## The parser -/

structure AlterTableParser where
  columnRenameMap : List (String × String) := []
  droppedColumns : List String := []
  isRenameTable : Bool := false
  isAutoIncrementDefined : Bool := false
  alterStatementOptions : String := ""
  alterTokens : List String := []
  explicitSchema : String := ""
  explicitTable : String := ""
deriving DecidableEq, Repr

/-- `m[key] = value`. -/
def mapSet (m : List (String × String)) (key value : String) : List (String × String) :=
  m.filter (fun p => p.1 ≠ key) ++ [(key, value)]

/-- The function that `tokenizeAlterStatement` splits with. -/
def splitsAt (terminatingQuote : Option Char) (c : Char) : Option Char × Bool :=
  if some c = terminatingQuote then (none, false)
  else if terminatingQuote ≠ none then (terminatingQuote, false)
  else if c = '\x27' then (some c, false)
  else if c = '(' then (some ')', false)
  else (none, c = ',')

def tokenizeAlterStatement (alterStatement : List Char) : List (List Char) :=
  (fieldsFunc splitsAt none [] alterStatement).map trimSpace

def sanitizeQuotesFromAlterStatement (alterStatement : List Char) : List Char :=
  sanitizeQuotesRegexp.replaceAllString ['\x27', '\x27'] alterStatement

/-- A name as the statement spells it, without its quotes. -/
def unquoted (name : List Char) : String := String.ofList ((unquote name).getD name)

namespace AlterTableParser

def parseAlterToken (atp : AlterTableParser) (alterToken : List Char) : AlterTableParser :=
  { atp with
    columnRenameMap := (renameColumnRegexp.findAllStringSubmatch alterToken).foldl
      (fun m found => mapSet m (unquoted (found.submatch 2)) (unquoted (found.submatch 3)))
      atp.columnRenameMap
    droppedColumns := (dropColumnRegexp.findAllStringSubmatch alterToken).foldl
      (fun dropped found => dropped.insert (unquoted (found.submatch 2))) atp.droppedColumns
    isRenameTable := atp.isRenameTable || renameTableRegexp.matchString alterToken
    isAutoIncrementDefined :=
      atp.isAutoIncrementDefined || autoIncrementRegexp.matchString alterToken }

/-- The first of the expressions that matches. -/
def firstSubmatch (regexps : List Regexp) (text : List Char) : Option Match :=
  regexps.findSome? fun r => r.findStringSubmatch text

/-- The two loops of `ParseAlterStatement` over the forms of `ALTER TABLE name`. -/
def parseExplicit (atp : AlterTableParser) (alterStatement : List Char) :
    AlterTableParser × List Char :=
  let (atp, alterStatementOptions) :=
    match firstSubmatch alterTableExplicitSchemaTableRegexps alterStatement with
    | some found =>
      ({ atp with
          explicitSchema := String.ofList (found.submatch 1)
          explicitTable := String.ofList (found.submatch 2) }, found.submatch 3)
    | none => (atp, alterStatement)
  match firstSubmatch alterTableExplicitTableRegexps alterStatementOptions with
  | some found =>
    ({ atp with explicitTable := String.ofList (found.submatch 1) }, found.submatch 2)
  | none => (atp, alterStatementOptions)

/-- The body of the loop over the tokens. -/
def parseToken (atp : AlterTableParser) (alterToken : List Char) : AlterTableParser :=
  let alterToken := sanitizeQuotesFromAlterStatement alterToken
  let atp := atp.parseAlterToken alterToken
  { atp with alterTokens := atp.alterTokens ++ [String.ofList alterToken] }

def parseAlterStatement (atp : AlterTableParser) (alterStatement : List Char) : AlterTableParser :=
  let (atp, alterStatementOptions) := atp.parseExplicit alterStatement
  (tokenizeAlterStatement alterStatementOptions).foldl parseToken
    { atp with alterStatementOptions := String.ofList alterStatementOptions }

def getNonTrivialRenames (parser : AlterTableParser) : List (String × String) :=
  parser.columnRenameMap.filter fun p => p.1 ≠ p.2

def hasNonTrivialRenames (parser : AlterTableParser) : Bool :=
  !parser.getNonTrivialRenames.isEmpty

end AlterTableParser

def newParserFromAlterStatement (alterStatement : String) : AlterTableParser :=
  ({} : AlterTableParser).parseAlterStatement alterStatement.toList

end GhOst.Sql
