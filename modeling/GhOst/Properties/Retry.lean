import GhOst.Logic.Applier
import GhOst.Logic.Retry

/-!
# Retrying a batch of row events

Building the queries of an update that changes the migration key marks the event as an insert and
leaves it so. The next attempt at the same batch therefore builds the insert only: the old row is
not deleted. The invariant of the attempts: the events are as they came until an attempt reaches the
build, and rewritten from then on.
-/

namespace GhOst.Logic

open GhOst.Sql GhOst.Binlog

/-- An update whose two images differ in the migration key. -/
def changesUniqueKey (apl : Applier) (dmlEvent : BinlogDMLEvent) : Bool :=
  dmlEvent.dml == .updateDML &&
    match updateModifiesUniqueKeyColumns apl dmlEvent with
    | .ok (some _) => true
    | _ => false

/-- An event as a build leaves it. -/
def afterBuild (apl : Applier) (dmlEvent : BinlogDMLEvent) : BinlogDMLEvent :=
  if changesUniqueKey apl dmlEvent then { dmlEvent with dml := .insertDML } else dmlEvent

/-- Whether an attempt gets as far as building the queries. -/
def reachesBuild : Option Failure → Bool
  | some (.beforeBuild _) => false
  | _ => true

variable {enc : Encodings} {apl : Applier}
variable {dmlEvent : BinlogDMLEvent} {results : List DmlBuildResult}
variable {left : BinlogDMLEvent} {queries : List Query} {dmlEvents : List BinlogDMLEvent}

/-! ## One event -/

theorem changesUniqueKey_afterBuild (dmlEvent : BinlogDMLEvent) :
    changesUniqueKey apl (afterBuild apl dmlEvent) = false := by
  unfold afterBuild
  split
  · rfl
  · next h => simpa using h

theorem afterBuild_of_not (h : changesUniqueKey apl dmlEvent = false) :
    afterBuild apl dmlEvent = dmlEvent := by
  unfold afterBuild
  rw [if_neg (by simp [h])]

theorem buildDMLEventQuery_of_not (h : buildDMLEventQuery enc apl dmlEvent = .ok (results, left))
    (hk : changesUniqueKey apl dmlEvent = false) :
    left = dmlEvent ∧ ∃ result, results = [result] := by
  unfold buildDMLEventQuery at h
  unfold changesUniqueKey at hk
  cases hd : dmlEvent.dml with
  | notDML =>
    simp only [hd, Except.ok.injEq, Prod.mk.injEq] at h
    exact ⟨h.2.symm, _, h.1.symm⟩
  | insertDML =>
    simp only [hd] at h
    cases hb : buildInsertEventQuery enc apl dmlEvent with
    | error f => simp [hb] at h
    | ok result =>
      simp only [hb, Except.ok.injEq, Prod.mk.injEq] at h
      exact ⟨h.2.symm, result, h.1.symm⟩
  | deleteDML =>
    simp only [hd] at h
    cases hb : buildDeleteEventQuery enc apl dmlEvent with
    | error f => simp [hb] at h
    | ok result =>
      simp only [hb, Except.ok.injEq, Prod.mk.injEq] at h
      exact ⟨h.2.symm, result, h.1.symm⟩
  | updateDML =>
    simp only [hd] at h hk
    cases hm : updateModifiesUniqueKeyColumns apl dmlEvent with
    | error f => simp [hm] at h
    | ok modified =>
      cases modified with
      | some column => simp [hm] at hk
      | none =>
        simp only [hm] at h
        cases hb : buildUpdateEventQuery enc apl dmlEvent with
        | error f => simp [hb] at h
        | ok result =>
          simp only [hb, Except.ok.injEq, Prod.mk.injEq] at h
          exact ⟨h.2.symm, result, h.1.symm⟩

theorem buildDMLEventQuery_of_changes
    (h : buildDMLEventQuery enc apl dmlEvent = .ok (results, left))
    (hk : changesUniqueKey apl dmlEvent = true) : left = { dmlEvent with dml := .insertDML } ∧
      ∃ deletion insertion, results = [deletion, insertion] ∧
        buildInsertEventQuery enc apl left = .ok insertion := by
  unfold changesUniqueKey at hk
  simp only [Bool.and_eq_true, beq_iff_eq] at hk
  obtain ⟨hd, hk⟩ := hk
  unfold buildDMLEventQuery at h
  simp only [hd] at h
  cases hm : updateModifiesUniqueKeyColumns apl dmlEvent with
  | error f => simp [hm] at hk
  | ok modified =>
    cases modified with
    | none => simp [hm] at hk
    | some column =>
      simp only [hm] at h
      cases hdel : buildDeleteEventQuery enc apl { dmlEvent with dml := .deleteDML } with
      | error f => simp [hdel] at h
      | ok deletion =>
        simp only [hdel] at h
        cases hins : buildInsertEventQuery enc apl { dmlEvent with dml := .insertDML } with
        | error f => simp [hins] at h
        | ok insertion =>
          simp only [hins, Except.ok.injEq, Prod.mk.injEq] at h
          obtain ⟨rfl, rfl⟩ := h
          exact ⟨rfl, deletion, insertion, rfl, hins⟩

theorem buildDMLEventQuery_event (h : buildDMLEventQuery enc apl dmlEvent = .ok (results, left)) :
    left = afterBuild apl dmlEvent := by
  unfold afterBuild
  cases hk : changesUniqueKey apl dmlEvent with
  | false =>
    rw [(buildDMLEventQuery_of_not h hk).1]
    simp
  | true =>
    rw [(buildDMLEventQuery_of_changes h hk).1]
    simp

theorem length_collectQueries : ∀ {results : List DmlBuildResult} {queries : List Query},
    collectQueries results = .ok queries → queries.length = results.length
  | [], queries, h => by
    rw [collectQueries] at h
    cases h
    rfl
  | .err _ :: _, _, h => by simp [collectQueries] at h
  | .built query args _ :: results, queries, h => by
    rw [collectQueries] at h
    cases hc : collectQueries results with
    | error text => simp [hc] at h
    | ok rest =>
      simp only [hc] at h
      cases h
      rw [List.length_cons, List.length_cons, length_collectQueries hc]

/-- **Building an event again** leaves it alone and gives one query, which is less than before only
for an update of the key. -/
theorem rebuild_event (h : buildDMLEventQuery enc apl dmlEvent = .ok (results, left))
    (hq : collectQueries results = .ok queries) :
    queries.length = 1 + (if changesUniqueKey apl dmlEvent then 1 else 0) ∧
      ∃ results' queries', buildDMLEventQuery enc apl left = .ok (results', left) ∧
        collectQueries results' = .ok queries' ∧ queries'.length = 1 := by
  have hlen := length_collectQueries hq
  cases hk : changesUniqueKey apl dmlEvent with
  | false =>
    obtain ⟨rfl, result, rfl⟩ := buildDMLEventQuery_of_not h hk
    exact ⟨by simpa using hlen, _, queries, h, hq, hlen⟩
  | true =>
    obtain ⟨rfl, deletion, insertion, rfl, hins⟩ := buildDMLEventQuery_of_changes h hk
    refine ⟨by simpa using hlen, [insertion], ?_⟩
    -- the insert of the first build is among its queries, so it is not an error
    cases deletion with
    | err text => simp [collectQueries] at hq
    | built query args delta =>
      cases insertion with
      | err text => simp [collectQueries] at hq
      | built query' args' delta' =>
        exact ⟨[(query', args')], buildDMLEventQuery_insert rfl hins, rfl, rfl⟩

/-! ## A batch -/

theorem buildBatch_cons {left : List BinlogDMLEvent}
    (h : buildBatch enc apl (dmlEvent :: dmlEvents) = .ok (.ok queries, left)) :
    ∃ results left₁ queries₁ queries₂ left₂,
      buildDMLEventQuery enc apl dmlEvent = .ok (results, left₁) ∧
      collectQueries results = .ok queries₁ ∧
      buildBatch enc apl dmlEvents = .ok (.ok queries₂, left₂) ∧
      queries = queries₁ ++ queries₂ ∧ left = left₁ :: left₂ := by
  rw [buildBatch] at h
  cases hb : buildDMLEventQuery enc apl dmlEvent with
  | error f => simp [hb] at h
  | ok r =>
    obtain ⟨results, left₁⟩ := r
    simp only [hb] at h
    cases hc : collectQueries results with
    | error text => simp [hc] at h
    | ok queries₁ =>
      simp only [hc] at h
      cases hr : buildBatch enc apl dmlEvents with
      | error f => simp [hr] at h
      | ok r₂ =>
        obtain ⟨e, left₂⟩ := r₂
        cases e with
        | error text => simp [hr] at h
        | ok queries₂ =>
          simp only [hr, Except.ok.injEq, Prod.mk.injEq] at h
          exact ⟨results, left₁, queries₁, queries₂, left₂, rfl, hc, rfl, h.1.symm, h.2.symm⟩

theorem buildBatch_events :
    ∀ {dmlEvents left : List BinlogDMLEvent} {queries : List Query},
      buildBatch enc apl dmlEvents = .ok (.ok queries, left) →
      left = dmlEvents.map (afterBuild apl)
  | [], left, queries, h => by
    simp only [buildBatch, Except.ok.injEq, Prod.mk.injEq] at h
    exact h.2.symm
  | dmlEvent :: dmlEvents, left, queries, h => by
    obtain ⟨results, left₁, queries₁, queries₂, left₂, hb, _, hr, _, rfl⟩ := buildBatch_cons h
    rw [List.map_cons, buildDMLEventQuery_event hb, buildBatch_events hr]

theorem length_buildBatch :
    ∀ {dmlEvents left : List BinlogDMLEvent} {queries : List Query},
      buildBatch enc apl dmlEvents = .ok (.ok queries, left) →
      queries.length = dmlEvents.length + dmlEvents.countP (changesUniqueKey apl)
  | [], left, queries, h => by
    simp only [buildBatch, Except.ok.injEq] at h
    cases h
    rfl
  | dmlEvent :: dmlEvents, left, queries, h => by
    obtain ⟨results, left₁, queries₁, queries₂, left₂, hb, hc, hr, rfl, _⟩ := buildBatch_cons h
    rw [List.length_append, (rebuild_event hb hc).1, length_buildBatch hr, List.countP_cons,
      List.length_cons]
    omega

/-- **Building a batch again succeeds, and leaves the events as they are.** -/
theorem rebuild_batch :
    ∀ {dmlEvents left : List BinlogDMLEvent} {queries : List Query},
      buildBatch enc apl dmlEvents = .ok (.ok queries, left) →
      ∃ queries', buildBatch enc apl left = .ok (.ok queries', left)
  | [], left, queries, h => by
    simp only [buildBatch, Except.ok.injEq, Prod.mk.injEq] at h
    exact ⟨[], by rw [← h.2]; rfl⟩
  | dmlEvent :: dmlEvents, left, queries, h => by
    obtain ⟨results, left₁, queries₁, queries₂, left₂, hb, hc, hr, rfl, rfl⟩ := buildBatch_cons h
    obtain ⟨_, results', queries₁', hb', hc', _⟩ := rebuild_event hb hc
    obtain ⟨queries₂', hr'⟩ := rebuild_batch hr
    refine ⟨queries₁' ++ queries₂', ?_⟩
    rw [buildBatch, hb']
    simp only [hc', hr']

/-- **The second build gives the queries of the first only if no event changes the key.** -/
theorem rebuild_eq_iff {left : List BinlogDMLEvent} {queries' : List Query}
    (h : buildBatch enc apl dmlEvents = .ok (.ok queries, left))
    (h' : buildBatch enc apl left = .ok (.ok queries', left)) :
    queries' = queries ↔ ∀ e ∈ dmlEvents, changesUniqueKey apl e = false := by
  have hleft := buildBatch_events h
  constructor
  · intro heq
    -- the first build gives one query more for each event that changes the key
    have hzero : left.countP (changesUniqueKey apl) = 0 := by
      rw [hleft, List.countP_map, List.countP_eq_zero]
      intro e _
      simp [changesUniqueKey_afterBuild]
    have hlen := length_buildBatch h
    have hlen' := length_buildBatch h'
    rw [heq, hzero, hleft, List.length_map] at hlen'
    have hcount : dmlEvents.countP (changesUniqueKey apl) = 0 := by omega
    simpa using List.countP_eq_zero.mp hcount
  · intro hnone
    have hsame : left = dmlEvents := by
      rw [hleft]
      exact (List.map_congr_left fun e he => afterBuild_of_not (hnone e he)).trans
        (List.map_id _)
    rw [hsame, h, Except.ok.injEq, Prod.mk.injEq, Except.ok.injEq] at h'
    exact h'.1.symm

/-! ## The attempts -/

variable {σ κ : Type} [DecidableEq κ] {srv : Server σ κ} {ix : Indexes}

/-- The batch after `i` failed attempts, when the first build leaves `left`. -/
structure Attempted (failures : Nat → Option Failure) (dmlEvents left : List BinlogDMLEvent)
    (ghost : List (Row σ)) (i : Nat) (s : BatchState σ) : Prop where
  attempts : s.attempts = i
  ghost : s.ghost = ghost
  /-- the events are as they came until an attempt reaches the build -/
  dmlEvents : (∀ j < i, reachesBuild (failures j) = false) ∧ s.dmlEvents = dmlEvents ∨
    (∃ j < i, reachesBuild (failures j) = true) ∧ s.dmlEvents = left

theorem applyDMLEventQueries_err {failure : Option Failure} {s s' : BatchState σ} {err : String}
    (h : applyDMLEventQueries enc apl srv ix failure s = .ok (some err, s')) :
    s'.attempts = s.attempts + 1 ∧ s'.ghost = s.ghost ∧
      (reachesBuild failure = false ∧ s'.dmlEvents = s.dmlEvents ∨
        reachesBuild failure = true ∧
          ∃ r, buildBatch enc apl s.dmlEvents = .ok (r, s'.dmlEvents)) := by
  unfold applyDMLEventQueries at h
  split at h
  · simp only [Except.ok.injEq, Prod.mk.injEq] at h
    obtain ⟨_, rfl⟩ := h
    exact ⟨rfl, rfl, .inl ⟨rfl, rfl⟩⟩
  · next hf =>
    have hreach : reachesBuild failure = true := by
      unfold reachesBuild
      split
      · next e => exact absurd rfl (hf e)
      · rfl
    cases hb : buildBatch enc apl s.dmlEvents with
    | error f => simp [hb] at h
    | ok r =>
      obtain ⟨r, dmlEvents⟩ := r
      refine ⟨?_, ?_, .inr ⟨hreach, r, ?_⟩⟩
      all_goals
        cases r with
        | error text =>
          simp only [hb, Except.ok.injEq, Prod.mk.injEq] at h
          rw [← h.2]
        | ok queries =>
          simp only [hb] at h
          split at h
          · simp only [Except.ok.injEq, Prod.mk.injEq] at h
            rw [← h.2]
          · split at h
            · simp only [Except.ok.injEq, Prod.mk.injEq] at h
              rw [← h.2]
            · simp at h

theorem applyDMLEventQueries_ok {failure : Option Failure} {s s' : BatchState σ}
    (h : applyDMLEventQueries enc apl srv ix failure s = .ok (none, s')) :
    s'.attempts = s.attempts + 1 ∧
      buildBatch enc apl s.dmlEvents = .ok (.ok s'.executed, s'.dmlEvents) ∧
      srv.execAll ix s.ghost s'.executed = some s'.ghost := by
  unfold applyDMLEventQueries at h
  split at h
  · simp at h
  · cases hb : buildBatch enc apl s.dmlEvents with
    | error f => simp [hb] at h
    | ok r =>
      obtain ⟨r, dmlEvents⟩ := r
      cases r with
      | error text => simp [hb] at h
      | ok queries =>
        simp only [hb] at h
        split at h
        · simp at h
        · cases he : srv.execAll ix s.ghost queries with
          | none => simp [he] at h
          | some ghost =>
            simp only [he, Except.ok.injEq, Prod.mk.injEq, true_and] at h
            subst h
            exact ⟨rfl, rfl, he⟩

theorem Attempted.step {failures : Nat → Option Failure} {left : List BinlogDMLEvent}
    {ghost : List (Row σ)} {i : Nat} {s s' : BatchState σ} {err : String}
    (hbuild : buildBatch enc apl dmlEvents = .ok (.ok queries, left))
    (hi : Attempted failures dmlEvents left ghost i s)
    (h : applyDMLEventQueries enc apl srv ix (failures i) s = .ok (some err, s')) :
    Attempted failures dmlEvents left ghost (i + 1) s' := by
  obtain ⟨hatt, hghost, hcase⟩ := applyDMLEventQueries_err h
  refine ⟨by rw [hatt, hi.attempts], hghost.trans hi.ghost, ?_⟩
  rcases hcase with ⟨hno, hsame⟩ | ⟨hyes, r, hb⟩
  · rcases hi.dmlEvents with ⟨hall, he⟩ | ⟨⟨j, hj, hr⟩, he⟩
    · refine .inl ⟨fun j hj => ?_, hsame.trans he⟩
      rcases Nat.lt_succ_iff_lt_or_eq.mp hj with hj | rfl
      · exact hall j hj
      · exact hno
    · exact .inr ⟨⟨j, by omega, hr⟩, hsame.trans he⟩
  · refine .inr ⟨⟨i, by omega, hyes⟩, ?_⟩
    rcases hi.dmlEvents with ⟨_, he⟩ | ⟨_, he⟩
    · rw [he, hbuild] at hb
      simp only [Except.ok.injEq, Prod.mk.injEq] at hb
      exact hb.2.symm
    · obtain ⟨queries', hre⟩ := rebuild_batch hbuild
      rw [he, hre] at hb
      simp only [Except.ok.injEq, Prod.mk.injEq] at hb
      exact hb.2.symm

/-- **A retried batch executes what an unfailed one would** exactly when no failed attempt got as
far as the build, or no event is an update that changes the migration key. -/
theorem executed_eq_iff {maxRetries : Nat} {failures : Nat → Option Failure}
    {checkAbort : Nat → Option String} {panicAbort : Option String}
    {dmlEvents left : List BinlogDMLEvent} {queries : List Query} {ghost : List (Row σ)}
    {s' : BatchState σ} (hpos : 0 < maxRetries)
    (hbuild : buildBatch enc apl dmlEvents = .ok (.ok queries, left))
    (h : retryOperation maxRetries
        (fun i s => applyDMLEventQueries enc apl srv ix (failures i) s) checkAbort false
        { dmlEvents, ghost } = .ok ({ err := none, panicAbort }, s')) :
    (s'.executed = queries ↔
      (∀ i, i + 1 < s'.attempts → reachesBuild (failures i) = false) ∨
        ∀ e ∈ dmlEvents, changesUniqueKey apl e = false) ∧
    (s'.executed = queries → srv.execAll ix ghost queries = some s'.ghost) := by
  obtain ⟨i, s₁, hi, hok⟩ := retryOperation_success
    (Attempted failures dmlEvents left ghost) hpos h
    ⟨rfl, rfl, .inl ⟨fun j hj => absurd hj (by omega), rfl⟩⟩
    (fun i s err s' hi ho => hi.step hbuild ho)
  obtain ⟨hatt, hb, hexec⟩ := applyDMLEventQueries_ok hok
  rw [hi.attempts] at hatt
  refine ⟨?_, fun heq => by rw [← heq, ← hi.ghost]; exact hexec⟩
  rcases hi.dmlEvents with ⟨hall, he⟩ | ⟨⟨j, hj, hr⟩, he⟩
  · -- no attempt before reached the build: this one builds the events as they came
    rw [he, hbuild] at hb
    simp only [Except.ok.injEq, Prod.mk.injEq] at hb
    exact iff_of_true hb.1.symm (.inl fun k hk => hall k (by omega))
  · obtain ⟨queries', hre⟩ := rebuild_batch hbuild
    rw [he, hre] at hb
    simp only [Except.ok.injEq] at hb
    cases hb
    rw [rebuild_eq_iff hbuild hre]
    constructor
    · exact .inr
    · rintro (hall | hnone)
      · exact absurd (hall j (by omega)) (by simp [hr])
      · exact hnone

/-! ## Two batches that are retried once -/

/-- One attempt of a batch on the small table, the first of which is rolled back by a deadlock. -/
def deadlockOnce (i : Nat) (s : BatchState Int64) :
    Except Fault (Option String × BatchState Int64) :=
  applyDMLEventQueries noEncodings smallApplier bigintServer { uniqueKey := ["id"], further := [] }
    (if i = 0 then some (.afterBuild "Error 1213: Deadlock found") else none) s

def smallInsert (id v : Int64) : BinlogDMLEvent :=
  { databaseName := "test", tableName := "t", dml := .insertDML,
    newColumnValues := some [.int64 id, .int64 v] }

def smallUpdate (id v id' v' : Int64) : BinlogDMLEvent :=
  { databaseName := "test", tableName := "t", dml := .updateDML,
    whereColumnValues := some [.int64 id, .int64 v],
    newColumnValues := some [.int64 id', .int64 v'] }

theorem executed_eq_iff_insert :
    retryOperation 60 deadlockOnce (fun _ => none) false
        { dmlEvents := [smallInsert 1 7], ghost := [] }
      = .ok ({ err := none },
          { dmlEvents := [smallInsert 1 7], ghost := [[("id", 1), ("v", 7)]],
            executed := [(.insertIgnore "test" "_t_gho" ["id", "v"] [.plain, .plain],
              [.int64 1, .int64 7])],
            attempts := 2 }) ∧
    bigintServer.execAll { uniqueKey := ["id"], further := [] } []
        [(.insertIgnore "test" "_t_gho" ["id", "v"] [.plain, .plain], [.int64 1, .int64 7])]
      = some [[("id", 1), ("v", 7)]] :=
  have hrun : retryOperation 60 deadlockOnce (fun _ => none) false
      { dmlEvents := [smallInsert 1 7], ghost := [] } = _ := by decide
  have hbuild : buildBatch noEncodings smallApplier [smallInsert 1 7]
      = .ok (.ok _, [smallInsert 1 7]) := by decide
  have hboth := executed_eq_iff (by decide) hbuild hrun
  ⟨hrun, hboth.2 (hboth.1.mpr (.inr (by decide)))⟩

/-- **A retried update of the key leaves the old row**: the second attempt executes the insert only.
-/
theorem retried_update_keeps_old_row :
    retryOperation 60 deadlockOnce (fun _ => none) false
        { dmlEvents := [smallUpdate 1 7 2 7], ghost := [[("id", 1), ("v", 7)]] }
      = .ok ({ err := none },
          { dmlEvents := [{ smallUpdate 1 7 2 7 with dml := .insertDML }],
            ghost := [[("id", 1), ("v", 7)], [("id", 2), ("v", 7)]],
            executed := [(.insertIgnore "test" "_t_gho" ["id", "v"] [.plain, .plain],
              [.int64 2, .int64 7])],
            attempts := 2 }) ∧
    retryOperation 60
        (fun _ => applyDMLEventQueries noEncodings smallApplier bigintServer
          { uniqueKey := ["id"], further := [] } none)
        (fun _ => none) false
        { dmlEvents := [smallUpdate 1 7 2 7], ghost := [[("id", 1), ("v", 7)]] }
      = .ok ({ err := none },
          { dmlEvents := [{ smallUpdate 1 7 2 7 with dml := .insertDML }],
            ghost := [[("id", 2), ("v", 7)]],
            executed := [(.delete "test" "_t_gho" ["id"], [.int64 1]),
              (.insertIgnore "test" "_t_gho" ["id", "v"] [.plain, .plain],
                [.int64 2, .int64 7])],
            attempts := 1 }) := by
  decide

end GhOst.Logic
