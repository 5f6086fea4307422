import GhOst.Sql.Builder
import GhOst.Infra.Keyed

/-!
# What the server does with the two tables

`Server σ κ` is what gh-ost relies on of MySQL: `σ` are stored values, `κ` what comparisons and
unique indexes see of them. Its fields take the name of a column, because gh-ost's statements only
name columns. A table is a list of rows, in no particular order; of the ghost table only the columns
that the original shares are kept. `exec` is the meaning of a statement; `none` says that it fails.
-/

namespace GhOst.Sql

open Infra

/-- A row of a table, in the order of its columns. -/
abbrev Row (σ : Type) := List (String × σ)

instance {σ : Type} [DecidableEq σ] (row : Row σ) (rows : List (Row σ)) : Decidable (row ∈ rows) :=
  inferInstance

structure Server (σ κ : Type) where
  /-- whether a column of the original can hold a value (its type, and `NOT NULL`) -/
  admits : String → σ → Bool
  /-- the value that a row image holds for a stored value of a column of the original -/
  image : String → σ → Value
  /-- the value stored in a column of the ghost that is assigned a token, given the argument -/
  bind : String → ValueToken → Value → σ
  /-- the value that `insert into ghost (to) select from …` stores -/
  select : (source target : String) → σ → σ
  collate : String → σ → κ
  /-- whether `column = ?` holds of a stored value of the ghost -/
  equals : String → σ → Value → Bool
  isNull : σ → Bool

/-- The unique indexes of the ghost, by their columns: the migration key and further ones. -/
structure Indexes where
  uniqueKey : List String
  further : List (List String)
deriving DecidableEq, Repr

inductive IndexName where
  | uniqueKey
  | further (columns : List String)
deriving DecidableEq, Repr

variable {σ κ : Type} [DecidableEq κ]

namespace Server

/-- What an index over `columns` sees of a row. -/
def entry (srv : Server σ κ) (columns : List String) (row : Row σ) : List κ :=
  columns.filterMap fun c => (row.lookup c).map (srv.collate c)

/-- An index does not constrain a row that is NULL in one of its columns. -/
def indexed (srv : Server σ κ) (columns : List String) (row : Row σ) : Bool :=
  columns.all fun c => (row.lookup c).any fun v => !srv.isNull v

/-- Two rows that a unique index over `columns` does not admit together. -/
def clash (srv : Server σ κ) (columns : List String) (q r : Row σ) : Bool :=
  srv.indexed columns q && srv.indexed columns r && srv.entry columns q == srv.entry columns r

/-- The indexes that keep `row` out of the table. -/
def violated (srv : Server σ κ) (ix : Indexes) (ghost : List (Row σ)) (row : Row σ) :
    List IndexName :=
  (if ghost.any fun q => srv.entry ix.uniqueKey q = srv.entry ix.uniqueKey row then [.uniqueKey]
    else [])
  ++ (ix.further.filter fun columns => ghost.any fun q => srv.clash columns q row).map .further

/-- `insert ignore` of one row: the row is dropped, with a warning, when an index is violated. -/
def insertIgnore (srv : Server σ κ) (ix : Indexes) (ghost : List (Row σ))
    (row : Row σ) : List (Row σ) :=
  if srv.violated ix ghost row = [] then ghost ++ [row] else ghost

/-- No two rows of the table violate an index. -/
def Consistent (srv : Server σ κ) (ix : Indexes) (ghost : List (Row σ)) : Prop :=
  ghost.Pairwise fun q r =>
    srv.entry ix.uniqueKey q ≠ srv.entry ix.uniqueKey r ∧
      ∀ columns ∈ ix.further, srv.clash columns q r = false

instance (srv : Server σ κ) (ix : Indexes) (ghost : List (Row σ)) :
    Decidable (srv.Consistent ix ghost) := by
  unfold Consistent
  infer_instance

/-- The `where` clause `(c₁ = ?) and …`. -/
def matchesWhere (srv : Server σ κ) (whereColumns : List String) (args : List Value)
    (row : Row σ) : Bool :=
  (whereColumns.zip args).all fun p => (row.lookup p.1).any fun v => srv.equals p.1 v p.2

/-- The values that `(c₁, …) values (t₁, …)` or `c₁ = t₁, …` give to the columns. -/
def assigned (srv : Server σ κ) (set : List (String × ValueToken)) (args : List Value) :
    Row σ :=
  List.zipWith (fun p arg => (p.1, srv.bind p.1 p.2 arg)) set args

/-- A row with new values in the assigned columns. -/
def assign (new row : Row σ) : Row σ :=
  row.map fun p => (p.1, (new.lookup p.1).getD p.2)

/-- The table after `update … set … where …`; the arguments of `set` come first. -/
def updated (srv : Server σ κ) (set : List (String × ValueToken)) (whereColumns : List String)
    (args : List Value) (ghost : List (Row σ)) : List (Row σ) :=
  ghost.map fun row =>
    if srv.matchesWhere whereColumns (args.drop set.length) row then
      assign (srv.assigned set args) row
    else row

/-- The meaning of a statement on the ghost table. An `update` fails when it violates an index. -/
def exec (srv : Server σ κ) (ix : Indexes) (ghost : List (Row σ)) :
    Statement → List Value → Option (List (Row σ))
  | .delete _ _ whereColumns, args =>
    some (ghost.filter fun row => !srv.matchesWhere whereColumns args row)
  | .insertIgnore _ _ columns values, args =>
    some (srv.insertIgnore ix ghost (srv.assigned (columns.zip values) args))
  | .update _ _ set whereColumns, args =>
    let after := srv.updated set whereColumns args ghost
    if srv.Consistent ix after then some after else none

/-- The indexes that keep the row of an `insert ignore` out of the table; a warning names one. -/
def ignoredFor (srv : Server σ κ) (ix : Indexes) (ghost : List (Row σ)) :
    Statement → List Value → List IndexName
  | .insertIgnore _ _ columns values, args =>
    srv.violated ix ghost (srv.assigned (columns.zip values) args)
  | _, _ => []

/-- A transaction: its statements in order, all of them or none. -/
def execAll (srv : Server σ κ) (ix : Indexes) :
    List (Row σ) → List (Statement × List Value) → Option (List (Row σ))
  | ghost, [] => some ghost
  | ghost, (statement, args) :: rest =>
    match srv.exec ix ghost statement args with
    | none => none
    | some ghost => execAll srv ix ghost rest

@[simp] theorem execAll_single {srv : Server σ κ} {ix : Indexes} {ghost : List (Row σ)}
    (query : Statement × List Value) :
    srv.execAll ix ghost [query] = srv.exec ix ghost query.1 query.2 := by
  rw [execAll]
  cases srv.exec ix ghost query.1 query.2 <;> rfl

theorem execAll_append {srv : Server σ κ} {ix : Indexes} :
    ∀ {ghost : List (Row σ)} (queries rest : List (Statement × List Value)),
      srv.execAll ix ghost (queries ++ rest)
        = (srv.execAll ix ghost queries).bind fun ghost => srv.execAll ix ghost rest
  | _, [], _ => rfl
  | ghost, (statement, args) :: queries, rest => by
    rw [List.cons_append, execAll, execAll]
    cases srv.exec ix ghost statement args with
    | none => rfl
    | some ghost' => exact execAll_append queries rest

/-! ## Rows that are ignored because of the migration key -/

/-- The row is not ignored, or it is ignored because its own migration key is already there. -/
def Clean (srv : Server σ κ) (ix : Indexes) (ghost : List (Row σ)) (row : Row σ) : Prop :=
  srv.violated ix ghost row = [] ∨ .uniqueKey ∈ srv.violated ix ghost row

instance (srv : Server σ κ) (ix : Indexes) (ghost : List (Row σ)) (row : Row σ) :
    Decidable (srv.Clean ix ghost row) := inferInstanceAs (Decidable (_ ∨ _))

/-- Every `insert ignore` of the transaction is clean where it is executed. -/
def cleanAll (srv : Server σ κ) (ix : Indexes) :
    List (Row σ) → List (Statement × List Value) → Bool
  | _, [] => true
  | ghost, (statement, args) :: rest =>
    (srv.ignoredFor ix ghost statement args == [] ||
      (srv.ignoredFor ix ghost statement args).contains .uniqueKey) &&
    match srv.exec ix ghost statement args with
    | none => true
    | some ghost => cleanAll srv ix ghost rest

theorem cleanAll_append {srv : Server σ κ} {ix : Indexes} :
    ∀ {ghost : List (Row σ)} (queries rest : List (Statement × List Value)),
      srv.cleanAll ix ghost (queries ++ rest)
        = (srv.cleanAll ix ghost queries &&
            match srv.execAll ix ghost queries with
            | none => true
            | some ghost => srv.cleanAll ix ghost rest)
  | _, [], _ => by simp [cleanAll, execAll]
  | ghost, (statement, args) :: queries, rest => by
    rw [List.cons_append, cleanAll, cleanAll, execAll]
    cases srv.exec ix ghost statement args with
    | none => simp
    | some ghost' =>
      simp only [cleanAll_append queries rest]
      rw [Bool.and_assoc]

variable {srv : Server σ κ} {ix : Indexes} {ghost : List (Row σ)} {row : Row σ}

theorem uniqueKey_mem_violated :
    .uniqueKey ∈ srv.violated ix ghost row ↔
      (lookup (srv.entry ix.uniqueKey) ghost (srv.entry ix.uniqueKey row)).isSome = true := by
  rw [← any_key_eq]
  unfold violated
  rw [List.mem_append]
  constructor
  · rintro (h | h)
    · split at h
      · next hany => exact hany
      · simp at h
    · simp at h
  · intro h
    exact .inl (by rw [if_pos h]; exact List.mem_singleton.mpr rfl)

/-- With the migration key as the only index, every `insert ignore` is clean. -/
theorem clean_of_no_further (h : ix.further = []) : srv.Clean ix ghost row := by
  unfold Clean violated
  rw [h]
  by_cases hk : ghost.any fun q => srv.entry ix.uniqueKey q = srv.entry ix.uniqueKey row
  · right
    rw [if_pos hk]
    simp
  · left
    rw [if_neg hk]
    rfl

theorem cleanAll_of_no_further (h : ix.further = []) :
    ∀ {queries : List (Statement × List Value)} {ghost : List (Row σ)},
      srv.cleanAll ix ghost queries = true
  | [], _ => rfl
  | (statement, args) :: rest, ghost => by
    have hstatement : srv.ignoredFor ix ghost statement args = [] ∨
        .uniqueKey ∈ srv.ignoredFor ix ghost statement args := by
      cases statement with
      | insertIgnore databaseName tableName columns values => exact clean_of_no_further h
      | delete databaseName tableName whereColumns => exact .inl rfl
      | update databaseName tableName set whereColumns => exact .inl rfl
    rw [cleanAll, Bool.and_eq_true, Bool.or_eq_true]
    refine ⟨hstatement.imp (fun h => by simp [h]) (fun h => by simpa using h), ?_⟩
    split
    · rfl
    · exact cleanAll_of_no_further h

/-- **What a clean `insert ignore` does**: it adds the row unless its key is there. -/
theorem lookup_insertIgnore (h : srv.Clean ix ghost row) (k : List κ) :
    lookup (srv.entry ix.uniqueKey) (srv.insertIgnore ix ghost row) k
      = (lookup (srv.entry ix.uniqueKey) ghost k).or
          (if srv.entry ix.uniqueKey row = k then some row else none) := by
  unfold insertIgnore
  rcases h with hnone | hkey
  · rw [if_pos hnone, lookup_append_single]
  · rw [if_neg fun hn => by rw [hn] at hkey; simp at hkey]
    rw [uniqueKey_mem_violated, Option.isSome_iff_exists] at hkey
    obtain ⟨q, hq⟩ := hkey
    by_cases hk : srv.entry ix.uniqueKey row = k
    · rw [← hk, hq]
      rfl
    · rw [if_neg hk, Option.or_none]

theorem keysNodup_insertIgnore (hn : KeysNodup (srv.entry ix.uniqueKey) ghost) :
    KeysNodup (srv.entry ix.uniqueKey) (srv.insertIgnore ix ghost row) := by
  unfold insertIgnore
  split
  · next h =>
    refine hn.append_single ?_
    rw [← Option.not_isSome_iff_eq_none, ← uniqueKey_mem_violated, h]
    simp
  · exact hn

theorem mem_insertIgnore {q : Row σ} (h : q ∈ srv.insertIgnore ix ghost row) :
    q ∈ ghost ∨ q = row := by
  unfold insertIgnore at h
  split at h
  · simpa using h
  · exact .inl h

end Server

/-- A server whose columns are all `BIGINT NOT NULL`. -/
def bigintServer : Server Int64 Int where
  admits _ _ := true
  image _ v := .int64 v
  bind _ _ arg :=
    match arg with
    | .int64 i => i
    | _ => 0
  select _ _ v := v
  collate _ v := v.toInt
  equals _ v arg := arg = .int64 v
  isNull _ := false

end GhOst.Sql
