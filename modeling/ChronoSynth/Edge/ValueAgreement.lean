import Mathlib
import ChronoSynth.Edge.ValueHosts

/-!
# When the hosts of the values agree

The web adapter and, for one persona, the device do what `Values.step` says, whatever they are asked. SQL does
where `Fits` holds: what it is to write it can store, and what it is to read it can read.

A persona's calls are its own business (`Isolated`) as long as it writes no value under an id of another
(`Untaken`). `hosts_iff` puts the two together.
-/

namespace ChronoSynth.Edge

open Values

variable {f : Values} {personaId id : String} {c : String × ValueOp}

/-! ## All values as a map -/

theorem valueMap_filter (rows : ValueRows) :
    valueMap ((rows.rows.filter fun row => row.personaId = personaId).map ValueRow.value) =
      held rows.get? personaId := by
  funext id
  have hmine : ∀ v, v ∈ ((rows.rows.filter fun row => row.personaId = personaId).map ValueRow.value) ∧ v.id = id ↔
      held rows.get? personaId id = some v := by
    intro v
    rw [held, Option.map_eq_some_iff]
    constructor
    · rintro ⟨hv, rfl⟩
      obtain ⟨row, hrow, rfl⟩ := List.mem_map.1 hv
      obtain ⟨hrow, hp⟩ := List.mem_filter.1 hrow
      exact ⟨row, by rw [Option.filter_eq_some_iff, RowMap.get?_eq_some]; exact ⟨⟨hrow, rfl⟩, hp⟩, rfl⟩
    · rintro ⟨row, hrow, rfl⟩
      rw [Option.filter_eq_some_iff, RowMap.get?_eq_some] at hrow
      exact ⟨List.mem_map_of_mem (List.mem_filter.2 ⟨hrow.1.1, hrow.2⟩), hrow.1.2⟩
  rw [valueMap]
  cases hf : List.find? (fun v => decide (v.id = id))
      ((rows.rows.filter fun row => row.personaId = personaId).map ValueRow.value).reverse with
  | some v =>
    have hid : v.id = id := by simpa using List.find?_some hf
    exact ((hmine v).1 ⟨List.mem_reverse.1 (List.mem_of_find?_eq_some hf), hid⟩).symm
  | none =>
    cases hh : held rows.get? personaId id with
    | none => rfl
    | some v =>
      obtain ⟨hv, hid⟩ := (hmine v).2 hh
      exact absurd (List.find?_eq_none.1 hf v (List.mem_reverse.2 hv)) (by simpa using hid)

theorem held_id {rows : ValueRows} {v : CoreValue} (h : held rows.get? personaId id = some v) : v.id = id := by
  obtain ⟨row, hrow, rfl⟩ := Option.map_eq_some_iff.1 h
  have hget : rows.get? id = some row := (Option.filter_eq_some_iff.1 hrow).1
  exact (RowMap.get?_eq_some.1 hget).2

/-! ## The web adapter -/

/-- The rows of the table, if it has been defined. -/
def webRows (t : WebValues) : ValueRows := t.getD RowMap.empty

/-- What the web adapter holds. -/
def webView (t : WebValues) : Values := (webRows t).get?

section
variable (t : WebValues) (v : CoreValue) (patch : CoreValuePatch) (updatedAt : JsFloat)

theorem defineValues_run : defineValues t = .ok (webRows t) (some (webRows t)) := by
  cases t <;> rfl

theorem web_byId : webExecutors.byId id personaId t = .ok ((webView t).held personaId id) (some (webRows t)) := by
  simp only [webExecutors, bind, EStateM.bind, defineValues_run, pure, EStateM.pure]
  rw [RowMap.find?_and]
  rfl

theorem web_all : ∃ values, webExecutors.all personaId t = .ok values (some (webRows t)) ∧
    valueMap values = (webView t).held personaId := by
  refine ⟨_, ?_, valueMap_filter (webRows t)⟩
  simp only [webExecutors, bind, EStateM.bind, defineValues_run, pure, EStateM.pure]

theorem web_create :
    webExecutors.create personaId v t = match webView t v.id with
      | some _ => .error (.exists v.id) (some (webRows t))
      | none => .ok 1 (some ((webRows t).set ⟨personaId, v⟩)) := by
  simp only [webExecutors, bind, EStateM.bind, defineValues_run]
  have hfind : ((webRows t).rows.find? fun row => row.value.id = v.id) = webView t v.id := rfl
  rw [hfind]
  cases webView t v.id <;> rfl

theorem web_update :
    webExecutors.update id personaId patch updatedAt t = match (webView t).held personaId id with
      | none => .ok 0 t
      | some v => .ok 1 (some ((webRows t).set ⟨personaId, patch.apply updatedAt v⟩)) := by
  cases t with
  | none => rfl
  | some rows =>
    simp only [webExecutors, bind, EStateM.bind, get, getThe, MonadStateOf.get, EStateM.get]
    rw [RowMap.find?_and, webView, held]
    change _ = match Option.map ValueRow.value ((rows.get? id).filter _) with | none => _ | some v => _
    cases (rows.get? id).filter fun row => row.personaId = personaId <;> rfl

theorem web_delete :
    ∃ n t', webExecutors.delete id personaId t = .ok n t' ∧ (0 < n ↔ (webView t).held personaId id ≠ none) ∧
      webView t' = match (webView t).held personaId id with
        | none => webView t
        | some _ => (webView t).put id none := by
  cases t with
  | none => exact ⟨0, none, rfl, by simp [webView, webRows, held], rfl⟩
  | some rows =>
    simp only [webExecutors, bind, EStateM.bind, get, getThe, MonadStateOf.get, EStateM.get]
    rw [RowMap.find?_and, webView, held]
    change ∃ n t', _ ∧ (0 < n ↔ Option.map ValueRow.value ((rows.get? id).filter _) ≠ none) ∧
      webView t' = match Option.map ValueRow.value ((rows.get? id).filter _) with
        | none => rows.get? | some _ => Values.put rows.get? id none
    cases h : (rows.get? id).filter fun row => row.personaId = personaId with
    | none => exact ⟨0, some rows, rfl, by simp, rfl⟩
    | some row =>
      obtain ⟨hrow, hid⟩ := RowMap.get?_eq_some.1 (Option.filter_eq_some_iff.1 h).1
      have hmem : id ∈ rows.rows.map fun row => row.value.id := hid ▸ List.mem_map_of_mem hrow
      refine ⟨1, some (rows.erase id), by simp only [hmem, if_true]; rfl, by simp, ?_⟩
      funext id'
      exact RowMap.get?_erase

theorem web_deleteAll :
    ∃ n t', webExecutors.deleteAll personaId t = .ok n t' ∧
      webView t' = fun id => (webView t id).filter fun row => row.personaId ≠ personaId := by
  cases t with
  | none => exact ⟨0, none, rfl, rfl⟩
  | some rows =>
    refine ⟨_, _, rfl, ?_⟩
    funext id
    change RowMap.get? (List.foldl _ rows _) id = (rows.get? id).filter _
    rw [RowMap.get?_foldl_erase]
    cases h : rows.get? id with
    | none => simp
    | some row =>
      obtain ⟨hrow, rfl⟩ := RowMap.get?_eq_some.1 h
      by_cases hp : row.personaId = personaId
      · rw [if_pos (List.mem_map_of_mem (List.mem_filter.2 ⟨hrow, by simpa using hp⟩))]
        simp [Option.filter_some, hp]
      · rw [if_neg]
        · simp [Option.filter_some, hp]
        · intro hmem
          obtain ⟨row', hrow', hid⟩ := List.mem_map.1 hmem
          obtain ⟨hrow', hp'⟩ := List.mem_filter.1 hrow'
          obtain rfl := List.inj_on_of_nodup_map rows.nodup hrow' hrow hid
          exact hp (by simpa using hp')

theorem web_upsert : webExecutors.upsert personaId v t = .ok 1 (some ((webRows t).set ⟨personaId, v⟩)) := by
  simp only [webExecutors, bind, EStateM.bind, defineValues_run]
  rfl

theorem webView_set (rows : ValueRows) (row : ValueRow) :
    webView (some (rows.set row)) = Values.put rows.get? row.value.id (some row) := by
  funext id
  exact RowMap.get?_set

end

/-- **The web adapter** does what a store of values is to do. -/
theorem web_step (c : String × ValueOp) (t : WebValues) :
    (webExecutors.step c t).2 = (Values.step c (webView t)).2 ∧
    webView (webExecutors.step c t).1 = (Values.step c (webView t)).1 := by
  obtain ⟨personaId, op⟩ := c
  by_cases ha : Accepted op
  swap
  · rw [step_refused ha, Values.step, if_neg ha]
    exact ⟨rfl, rfl⟩
  rw [Values.step, if_pos ha]
  have hget : ∀ id t, webExecutors.step (personaId, .getValueById id) t =
      (some (webRows t), some (.value ((webView t).held personaId id))) := fun id t => by
    simp only [ValueExecutors.step, ValueExecutors.call, bind, EStateM.bind, EStateM.run, web_byId]
    rfl
  cases op with
  | createValue id now label weight timeDiscount emotionAmplifier =>
    rw [step_create ha, web_create]
    simp only
    cases webView t id with
    | some row => exact ⟨rfl, rfl⟩
    | none => exact ⟨rfl, webView_set _ _⟩
  | updateValue now id patch =>
    rw [step_update ha, web_update, hget]
    simp only
    split_ifs with he
    · exact ⟨rfl, rfl⟩
    · cases hh : (webView t).held personaId id with
      | none => exact ⟨rfl, rfl⟩
      | some v =>
        obtain rfl : v.id = id := held_id hh
        simp only [one_ne_zero, if_false, hget]
        refine ⟨?_, webView_set _ _⟩
        rw [webView_set]
        simp [held, Values.put, CoreValuePatch.apply, Option.filter_some]
  | getValueById id =>
    rw [hget]
    exact ⟨rfl, rfl⟩
  | getAllValues =>
    obtain ⟨values, hrun, hmap⟩ := @web_all personaId t
    simp only [ValueExecutors.step, ValueExecutors.call, bind, EStateM.bind, EStateM.run, hrun, hmap]
    exact ⟨rfl, rfl⟩
  | deleteValue id =>
    obtain ⟨n, t', hrun, hn, hview⟩ := @web_delete personaId id t
    simp only [ValueExecutors.step, ValueExecutors.call, bind, EStateM.bind, EStateM.run, hrun]
    cases hh : (webView t).held personaId id with
    | none =>
      rw [hh] at hn hview
      exact ⟨by simpa [pure, EStateM.pure] using hn, hview⟩
    | some v =>
      rw [hh] at hn hview
      exact ⟨by simpa [pure, EStateM.pure] using hn, hview⟩
  | deleteAllValues =>
    obtain ⟨n, t', hrun, hview⟩ := @web_deleteAll personaId t
    simp only [ValueExecutors.step, ValueExecutors.call, bind, EStateM.bind, EStateM.run, hrun]
    exact ⟨rfl, hview⟩
  | upsertValue value =>
    simp only [ValueExecutors.step, ValueExecutors.call, bind, EStateM.bind, EStateM.run, web_upsert]
    exact ⟨rfl, webView_set _ _⟩

/-! ## The device -/

/-- What the device holds, as rows of its persona. -/
def memoryView (personaId : String) (s : ValueStore) : Values := fun id =>
  (s.lookup id).map fun v => ⟨personaId, v⟩

section
variable {s : ValueStore} {v : CoreValue}

@[simp] theorem held_memoryView : (memoryView personaId s).held personaId id = s.lookup id := by
  rw [held, memoryView]
  cases s.lookup id <;> simp [Option.filter_some]

theorem memoryView_set : memoryView personaId (s.set v) = (memoryView personaId s).put v.id (some ⟨personaId, v⟩) := by
  funext id
  rw [memoryView, ValueStore.lookup_set, put]
  split_ifs <;> rfl

theorem memoryView_delete : memoryView personaId (s.delete id) = (memoryView personaId s).put id none := by
  funext id'
  rw [memoryView, ValueStore.lookup_delete, put]
  split_ifs <;> rfl

theorem valueMap_rows : valueMap s.rows = s.lookup := by
  funext id
  rw [valueMap]
  cases hf : s.rows.reverse.find? fun v => v.id = id with
  | some v =>
    have hid : v.id = id := by simpa using List.find?_some hf
    exact (ValueStore.lookup_eq_some.2 ⟨List.mem_reverse.1 (List.mem_of_find?_eq_some hf), hid⟩).symm
  | none =>
    refine (ValueStore.lookup_eq_none.2 fun v hv => ?_).symm
    simpa using List.find?_eq_none.1 hf v (List.mem_reverse.2 hv)

end

/-- **The device** does for its persona what a store of values is to do. -/
theorem memory_step (personaId : String) (op : ValueOp) (s : ValueStore) :
    (memoryExecutors.step (personaId, op) s).2 = (Values.step (personaId, op) (memoryView personaId s)).2 ∧
    memoryView personaId (memoryExecutors.step (personaId, op) s).1 =
      (Values.step (personaId, op) (memoryView personaId s)).1 := by
  by_cases ha : Accepted op
  swap
  · rw [step_refused ha, Values.step, if_neg ha]
    exact ⟨rfl, rfl⟩
  rw [Values.step, if_pos ha]
  have hget : ∀ id s, memoryExecutors.step (personaId, .getValueById id) s = (s, some (.value (s.lookup id))) :=
    fun _ _ => rfl
  cases op with
  | createValue id now label weight timeDiscount emotionAmplifier =>
    rw [step_create ha]
    simp only [memoryExecutors, bind, EStateM.bind, get, getThe, MonadStateOf.get, EStateM.get]
    cases hl : s.lookup id with
    | some v =>
      have hv : memoryView personaId s id = some ⟨personaId, v⟩ := by rw [memoryView, hl]; rfl
      rw [hv]
      exact ⟨rfl, rfl⟩
    | none =>
      have hv : memoryView personaId s id = none := by rw [memoryView, hl]; rfl
      rw [hv]
      exact ⟨rfl, memoryView_set⟩
  | updateValue now id patch =>
    rw [step_update ha, hget]
    simp only [held_memoryView]
    split_ifs with he
    · exact ⟨rfl, rfl⟩
    · simp only [memoryExecutors, bind, EStateM.bind, get, getThe, MonadStateOf.get, EStateM.get]
      cases hl : s.lookup id with
      | none => exact ⟨rfl, rfl⟩
      | some v =>
        obtain rfl : v.id = id := (ValueStore.lookup_eq_some.1 hl).2
        refine ⟨?_, memoryView_set⟩
        change some (ValueAnswer.value ((s.set (patch.apply now v)).lookup v.id)) = _
        rw [ValueStore.lookup_set]
        exact congrArg (fun v => some (ValueAnswer.value v)) (if_pos rfl)
  | getValueById id =>
    simp only [hget, held_memoryView, and_self]
  | getAllValues =>
    refine ⟨?_, rfl⟩
    change some (ValueAnswer.values (valueMap s.rows)) = _
    rw [valueMap_rows]
    exact congrArg (fun m => some (ValueAnswer.values m)) (funext fun id => held_memoryView.symm)
  | deleteValue id =>
    simp only [held_memoryView]
    cases hl : s.lookup id with
    | none =>
      constructor
      · change some (ValueAnswer.deleted (decide ((if (s.lookup id).isSome then 1 else 0) > 0))) = _
        rw [hl]
        rfl
      · change memoryView personaId (s.delete id) = _
        rw [memoryView_delete]
        funext id'
        rw [put]
        split_ifs with hid
        · simp [memoryView, hid, hl]
        · rfl
    | some v =>
      constructor
      · change some (ValueAnswer.deleted (decide ((if (s.lookup id).isSome then 1 else 0) > 0))) = _
        rw [hl]
        rfl
      · exact memoryView_delete
  | deleteAllValues =>
    refine ⟨rfl, ?_⟩
    funext id
    change none = ((s.lookup id).map fun v => (⟨personaId, v⟩ : ValueRow)).filter _
    cases s.lookup id <;> simp [Option.filter_some]
  | upsertValue value => exact ⟨rfl, memoryView_set⟩

/-! ## SQL -/

/-- What a call is to write can be stored, and what it is to read can be read. -/
def Fits (f : Values) (c : String × ValueOp) : Prop :=
  Accepted c.2 →
    match c.2 with
    | .createValue id now label weight timeDiscount emotionAmplifier =>
      f id = none → Storable ⟨id, label, weight, timeDiscount, emotionAmplifier, now⟩
    | .updateValue now id patch => ∀ v, f.held c.1 id = some v →
      if patch.isEmpty then ¬ isWide v.updatedAt else Storable (patch.apply now v) ∧ ¬ isWide now
    | .getValueById id => ∀ v, f.held c.1 id = some v → ¬ isWide v.updatedAt
    | .getAllValues => ∀ id v, f.held c.1 id = some v → ¬ isWide v.updatedAt
    | .upsertValue value => Storable (upserted value)
    | .deleteValue _ | .deleteAllValues => True

section
variable {rows : ValueRows} {v : CoreValue} {patch : CoreValuePatch} {updatedAt : JsFloat}

theorem sql_byId : sqlExecutors.byId id personaId rows = match held rows.get? personaId id with
    | none => .ok none rows
    | some v => if isWide v.updatedAt then .error .outOfRange rows else .ok (some v) rows := by
  simp only [sqlExecutors, bind, EStateM.bind, get, getThe, MonadStateOf.get, EStateM.get, held]
  cases (rows.get? id).filter fun row => row.personaId = personaId with
  | none => rfl
  | some row =>
    simp only [Option.map_some, toValue]
    split_ifs <;> rfl

theorem mapM_toValue {l : List ValueRow} :
    l.mapM toValue = if ∃ row ∈ l, isWide row.value.updatedAt then .error .outOfRange
      else .ok (l.map ValueRow.value) := by
  induction l with
  | nil => simp [pure, Except.pure]
  | cons row l ih =>
    rw [List.mapM_cons, ih]
    by_cases hw : isWide row.value.updatedAt
    · simp [toValue, hw, bind, Except.bind]
    · by_cases hl : ∃ row ∈ l, isWide row.value.updatedAt
      · simp [toValue, hw, hl, bind, Except.bind]
      · simp [toValue, hw, hl, bind, Except.bind, pure, Except.pure]

theorem sql_all : (∀ id v, held rows.get? personaId id = some v → ¬ isWide v.updatedAt) ∧
      (∃ values, sqlExecutors.all personaId rows = .ok values rows ∧ valueMap values = held rows.get? personaId) ∨
    ¬ (∀ id v, held rows.get? personaId id = some v → ¬ isWide v.updatedAt) ∧
      sqlExecutors.all personaId rows = .error .outOfRange rows := by
  have hiff : (∃ row ∈ rows.rows.filter fun row => row.personaId = personaId, isWide row.value.updatedAt) ↔
      ¬ ∀ id v, held rows.get? personaId id = some v → ¬ isWide v.updatedAt := by
    push Not
    constructor
    · rintro ⟨row, hrow, hw⟩
      obtain ⟨hrow, hp⟩ := List.mem_filter.1 hrow
      have hget : rows.get? row.value.id = some row := RowMap.get?_eq_some.2 ⟨hrow, rfl⟩
      exact ⟨row.value.id, row.value, by rw [held, hget, Option.filter_some, if_pos hp]; rfl, hw⟩
    · rintro ⟨id, v, hv, hw⟩
      obtain ⟨row, hrow, rfl⟩ := Option.map_eq_some_iff.1 hv
      obtain ⟨hget, hp⟩ := Option.filter_eq_some_iff.1 hrow
      exact ⟨row, List.mem_filter.2 ⟨(RowMap.get?_eq_some.1 hget).1, hp⟩, hw⟩
  simp only [sqlExecutors, bind, EStateM.bind, get, getThe, MonadStateOf.get, EStateM.get, mapM_toValue]
  by_cases hall : ∀ id v, held rows.get? personaId id = some v → ¬ isWide v.updatedAt
  · refine .inl ⟨hall, _, ?_, valueMap_filter rows⟩
    rw [if_neg fun h => hiff.1 h hall]
    rfl
  · refine .inr ⟨hall, ?_⟩
    rw [if_pos (hiff.2 hall)]
    rfl

theorem sql_create : sqlExecutors.create personaId v rows =
    if ¬ Storable v then .error .constraint rows
    else match rows.get? v.id with
      | some _ => .error (.exists v.id) rows
      | none => .ok 1 (rows.set ⟨personaId, v⟩) := by
  simp only [sqlExecutors, bind, EStateM.bind, get, getThe, MonadStateOf.get, EStateM.get]
  split_ifs
  · cases rows.get? v.id <;> rfl
  · rfl

theorem sql_update : sqlExecutors.update id personaId patch updatedAt rows =
    match held rows.get? personaId id with
    | none => .ok 0 rows
    | some v =>
      if ¬ Storable (patch.apply updatedAt v) then .error .constraint rows
      else .ok 1 (rows.set ⟨personaId, patch.apply updatedAt v⟩) := by
  simp only [sqlExecutors, bind, EStateM.bind, get, getThe, MonadStateOf.get, EStateM.get, held]
  cases h : (rows.get? id).filter fun row => row.personaId = personaId with
  | none => rfl
  | some row =>
    have hp : row.personaId = personaId := by simpa using (Option.filter_eq_some_iff.1 h).2
    simp only [Option.map_some, hp]
    split_ifs <;> rfl

theorem sql_delete : sqlExecutors.delete id personaId rows = match held rows.get? personaId id with
    | none => .ok 0 rows
    | some _ => .ok 1 (rows.erase id) := by
  simp only [sqlExecutors, bind, EStateM.bind, get, getThe, MonadStateOf.get, EStateM.get, held]
  cases (rows.get? id).filter fun row => row.personaId = personaId <;> rfl

theorem sql_upsert : sqlExecutors.upsert personaId v rows =
    if ¬ Storable v then .error .constraint rows else .ok 1 (rows.set ⟨personaId, v⟩) := by
  simp only [sqlExecutors, bind, EStateM.bind, get, getThe, MonadStateOf.get, EStateM.get]
  split_ifs <;> rfl

end

def SqlFollows (c : String × ValueOp) (rows : ValueRows) : Prop :=
  (sqlExecutors.step c rows).2 = (Values.step c rows.get?).2 ∧
  (sqlExecutors.step c rows).1.get? = (Values.step c rows.get?).1

/-- **SQL** does what a store of values is to do where the call fits, and answers otherwise where it does not. -/
theorem sql_step (c : String × ValueOp) (rows : ValueRows) :
    Fits rows.get? c ∧ SqlFollows c rows ∨
    ¬ Fits rows.get? c ∧ (sqlExecutors.step c rows).2 ≠ (Values.step c rows.get?).2 := by
  obtain ⟨personaId, op⟩ := c
  by_cases ha : Accepted op
  swap
  · left
    refine ⟨fun h => absurd h ha, ?_⟩
    rw [SqlFollows, step_refused ha, Values.step, if_neg ha]
    exact ⟨rfl, rfl⟩
  rw [SqlFollows, Values.step, if_pos ha]
  have hfits : ∀ {p : Prop}, (Accepted op → p) ↔ p := fun {p} => forall_prop_of_true ha
  have hget : ∀ id rows, sqlExecutors.step (personaId, .getValueById id) rows =
      (rows, match held rows.get? personaId id with
        | none => some (.value none)
        | some v => if isWide v.updatedAt then none else some (.value (some v))) := fun id rows => by
    simp only [ValueExecutors.step, ValueExecutors.call, bind, EStateM.bind, EStateM.run, sql_byId]
    cases held rows.get? personaId id with
    | none => rfl
    | some v =>
      simp only
      split_ifs <;> rfl
  cases op with
  | createValue id now label weight timeDiscount emotionAmplifier =>
    simp only [Fits, hfits]
    rw [step_create ha, sql_create]
    cases hf : rows.get? id with
    | some row =>
      left
      refine ⟨fun h => (by cases h), ?_⟩
      split_ifs <;> exact ⟨rfl, rfl⟩
    | none =>
      by_cases hs : Storable ⟨id, label, weight, timeDiscount, emotionAmplifier, now⟩
      · left
        rw [if_neg (not_not.2 hs)]
        exact ⟨fun _ => hs, rfl, webView_set _ _⟩
      · right
        rw [if_pos hs]
        exact ⟨fun h => hs (h rfl), fun h => (by cases h)⟩
  | updateValue now id patch =>
    simp only [Fits, hfits]
    rw [step_update ha, sql_update, hget]
    cases hh : held rows.get? personaId id with
    | none =>
      left
      refine ⟨fun v hv => (by cases hv), ?_⟩
      split_ifs <;> exact ⟨rfl, rfl⟩
    | some v =>
      obtain rfl : v.id = id := held_id hh
      by_cases he : patch.isEmpty
      · simp only [he, if_true]
        by_cases hw : isWide v.updatedAt
        · right
          exact ⟨fun h => h v rfl hw, by simp [hw]⟩
        · left
          exact ⟨by rintro _ ⟨⟩; exact hw, by simp [hw]⟩
      · simp only [he, Bool.false_eq_true, if_false]
        by_cases hs : Storable (patch.apply now v)
        · have hheld : held (rows.set ⟨personaId, patch.apply now v⟩).get? personaId v.id =
              some (patch.apply now v) := by
            have hput := webView_set rows ⟨personaId, patch.apply now v⟩
            change (rows.set _).get? = _ at hput
            rw [hput]
            simp [held, Values.put, CoreValuePatch.apply, Option.filter_some]
          rw [if_neg (not_not.2 hs)]
          simp only [one_ne_zero, if_false, hget, hheld]
          by_cases hw : isWide now
          · right
            refine ⟨fun h => (h v rfl).2 hw, ?_⟩
            have hw' : isWide (patch.apply now v).updatedAt := hw
            simp [hw']
          · left
            have hw' : ¬ isWide (patch.apply now v).updatedAt := hw
            refine ⟨by rintro _ ⟨⟩; exact ⟨hs, hw⟩, by simp [hw'], webView_set _ _⟩
        · right
          rw [if_pos hs]
          exact ⟨fun h => hs (h v rfl).1, fun h => (by cases h)⟩
  | getValueById id =>
    simp only [Fits, hfits]
    rw [hget]
    cases hh : held rows.get? personaId id with
    | none => exact .inl ⟨fun v hv => (by cases hv), by simp⟩
    | some v =>
      by_cases hw : isWide v.updatedAt
      · exact .inr ⟨fun h => h v rfl hw, by simp [hw]⟩
      · exact .inl ⟨by rintro _ ⟨⟩; exact hw, by simp [hw]⟩
  | getAllValues =>
    simp only [Fits, hfits]
    simp only [ValueExecutors.step, ValueExecutors.call, bind, EStateM.bind, EStateM.run]
    obtain ⟨hall, values, hrun, hmap⟩ | ⟨hall, hrun⟩ := @sql_all personaId rows
    · left
      rw [hrun]
      simp only [hmap]
      exact ⟨hall, rfl, rfl⟩
    · right
      rw [hrun]
      exact ⟨hall, fun h => (by cases h)⟩
  | deleteValue id =>
    left
    refine ⟨fun _ => trivial, ?_⟩
    simp only [ValueExecutors.step, ValueExecutors.call, bind, EStateM.bind, EStateM.run, sql_delete]
    cases held rows.get? personaId id with
    | none => exact ⟨rfl, rfl⟩
    | some v => exact ⟨rfl, funext fun id' => RowMap.get?_erase⟩
  | deleteAllValues =>
    left
    exact ⟨fun _ => trivial, rfl, funext fun id => RowMap.get?_keep⟩
  | upsertValue value =>
    simp only [Fits, hfits]
    rw [step_upsert, sql_upsert]
    by_cases hs : Storable (upserted value)
    · left
      rw [if_neg (not_not.2 hs)]
      exact ⟨hs, rfl, webView_set _ _⟩
    · right
      rw [if_pos hs]
      exact ⟨hs, fun h => (by cases h)⟩

/-! ## Personas apart -/

def Values.only (personaId : String) (f : Values) : Values := fun id =>
  (f id).filter fun row => row.personaId = personaId

/-- A persona's call changes, hides and reveals no value of another: the others hold what they held, and the answer
is what it would be without theirs. -/
structure Isolated {σ : Type} (step : String × ValueOp → σ → σ × Option ValueAnswer) (view : σ → Values)
    (only : String → σ → σ) (s : σ) (c : String × ValueOp) : Prop where
  others : ∀ q, q ≠ c.1 → ∀ id, (view (step c s).1).held q id = (view s).held q id
  own : (step c (only c.1 s)).2 = (step c s).2

/-- The id of a value that is to be written is not that of another persona's value. -/
def Untaken (f : Values) (c : String × ValueOp) : Prop :=
  Accepted c.2 →
    match c.2 with
    | .createValue id _ _ _ _ _ => ∀ row, f id = some row → row.personaId = c.1
    | .upsertValue value => ∀ row, f value.id = some row → row.personaId = c.1
    | _ => True

theorem held_only : (f.only personaId).held personaId id = f.held personaId id := by
  rw [held, held, only, Option.filter_filter]
  simp

theorem held_eq_none {q : String} (hf : ∀ row, f id = some row → row.personaId ≠ q) : f.held q id = none := by
  rw [held, Option.map_eq_none_iff, Option.filter_eq_none_iff]
  exact fun row hrow => by simpa using hf row hrow

theorem held_put_other {q id' : String} {row? : Option ValueRow} (hq : q ≠ personaId)
    (hf : ∀ row, f id = some row → row.personaId = personaId)
    (hrow : ∀ row, row? = some row → row.personaId = personaId) : (f.put id row?).held q id' = f.held q id' := by
  by_cases hid : id' = id
  · subst hid
    have hbefore : f.held q id' = none := held_eq_none fun row hr => by
      rw [hf row hr]
      exact hq.symm
    have hafter : (f.put id' row?).held q id' = none := held_eq_none fun row hr => by
      rw [put, if_pos rfl] at hr
      rw [hrow row hr]
      exact hq.symm
    rw [hbefore, hafter]
  · rw [held, held, put, if_neg hid]

theorem eq_of_held {v : CoreValue} (h : f.held personaId id = some v) {row : ValueRow} (hrow : f id = some row) :
    row.personaId = personaId := by
  rw [held, hrow, Option.map_eq_some_iff] at h
  obtain ⟨row', h, -⟩ := h
  obtain ⟨h, hp⟩ := Option.filter_eq_some_iff.1 h
  obtain rfl := Option.some.inj h
  simpa using hp

theorem only_eq_self (h : ∀ row, f id = some row → row.personaId = personaId) :
    f.only personaId id = f id := by
  rw [only]
  cases hf : f id with
  | none => rfl
  | some row => rw [Option.filter_some, if_pos (by simpa using h row hf)]

theorem values_isolated_iff (f : Values) (c : String × ValueOp) :
    Isolated Values.step (fun f => f) Values.only f c ↔ Untaken f c := by
  obtain ⟨personaId, op⟩ := c
  by_cases ha : Accepted op
  swap
  · refine iff_of_true ⟨fun q _ id => ?_, ?_⟩ fun h => absurd h ha
    · rw [Values.step, if_neg ha]
    · rw [Values.step, Values.step, if_neg ha, if_neg ha]
  have hunt : ∀ {p : Prop}, (Accepted op → p) ↔ p := fun {p} => forall_prop_of_true ha
  cases op with
  | createValue id now label weight timeDiscount emotionAmplifier =>
    simp only [Untaken, hunt]
    constructor
    · rintro ⟨-, hown⟩ row hrow
      by_contra hp
      have honly : f.only personaId id = none := by rw [only, hrow, Option.filter_some, if_neg (by simpa using hp)]
      rw [Values.step, Values.step, if_pos ha, if_pos ha] at hown
      simp [honly, hrow] at hown
    · intro h
      have honly := only_eq_self h
      constructor
      · intro q hq id'
        rw [Values.step, if_pos ha]
        cases hf : f id with
        | some row => simp only [hf]
        | none =>
          simp only [hf]
          exact held_put_other hq h fun row hr => Option.some.inj hr ▸ rfl
      · rw [Values.step, Values.step, if_pos ha, if_pos ha]
        simp only [honly]
        cases f id <;> rfl
  | updateValue now id patch =>
    refine iff_of_true ⟨fun q hq id' => ?_, ?_⟩ fun _ => trivial
    · rw [Values.step, if_pos ha]
      simp only
      split_ifs
      · rfl
      · cases hh : f.held personaId id with
        | none => rfl
        | some v => exact held_put_other hq (fun row => eq_of_held hh) fun row hr => Option.some.inj hr ▸ rfl
    · rw [Values.step, Values.step, if_pos ha, if_pos ha]
      simp only [held_only]
      split_ifs
      · rfl
      · cases f.held personaId id <;> rfl
  | getValueById id =>
    refine iff_of_true ⟨fun q hq id' => ?_, ?_⟩ fun _ => trivial
    · rw [Values.step, if_pos ha]
    · rw [Values.step, Values.step, if_pos ha, if_pos ha]
      simp only [held_only]
  | getAllValues =>
    refine iff_of_true ⟨fun q hq id' => ?_, ?_⟩ fun _ => trivial
    · rw [Values.step, if_pos ha]
    · rw [Values.step, Values.step, if_pos ha, if_pos ha]
      simp only
      exact congrArg (fun m => some (ValueAnswer.values m)) (funext fun id => held_only)
  | deleteValue id =>
    refine iff_of_true ⟨fun q hq id' => ?_, ?_⟩ fun _ => trivial
    · rw [Values.step, if_pos ha]
      simp only
      cases hh : f.held personaId id with
      | none => rfl
      | some v => exact held_put_other hq (fun row => eq_of_held hh) fun row hr => absurd hr (by simp)
    · rw [Values.step, Values.step, if_pos ha, if_pos ha]
      simp only [held_only]
      cases f.held personaId id <;> rfl
  | deleteAllValues =>
    refine iff_of_true ⟨fun q hq id' => ?_, ?_⟩ fun _ => trivial
    · rw [Values.step, if_pos ha]
      simp only [held, Option.filter_filter]
      refine congrArg _ (congrArg (fun p => Option.filter p (f id')) (funext fun row => ?_))
      by_cases hp : row.personaId = q
      · simp [hp, hq]
      · simp [hp]
    · rw [Values.step, Values.step, if_pos ha, if_pos ha]
  | upsertValue value =>
    simp only [Untaken, hunt]
    constructor
    · rintro ⟨hothers, -⟩ row hrow
      by_contra hp
      have hheld := hothers row.personaId hp value.id
      rw [Values.step, if_pos ha] at hheld
      simp [held, put, hrow, Option.filter_some, Ne.symm hp] at hheld
    · intro h
      constructor
      · intro q hq id'
        rw [Values.step, if_pos ha]
        exact held_put_other hq h fun row hr => Option.some.inj hr ▸ rfl
      · rw [Values.step, Values.step, if_pos ha, if_pos ha]

/-- The web adapter with the rows of one persona. -/
def webOnly (personaId : String) (t : WebValues) : WebValues :=
  t.map fun rows => rows.keep fun row => row.personaId = personaId

def sqlOnly (personaId : String) (rows : ValueRows) : ValueRows := rows.keep fun row => row.personaId = personaId

theorem webView_webOnly (t : WebValues) : webView (webOnly personaId t) = (webView t).only personaId := by
  funext id
  cases t with
  | none => rfl
  | some rows => exact RowMap.get?_keep

theorem web_isolated_iff (c : String × ValueOp) (t : WebValues) :
    Isolated webExecutors.step webView webOnly t c ↔ Untaken (webView t) c := by
  obtain ⟨hanswer, hview⟩ := web_step c t
  obtain ⟨honly, -⟩ := web_step c (webOnly c.1 t)
  rw [webView_webOnly] at honly
  rw [← values_isolated_iff]
  constructor
  · rintro ⟨hothers, hown⟩
    exact ⟨by rwa [hview] at hothers, by rw [← honly, ← hanswer, hown]⟩
  · rintro ⟨hothers, hown⟩
    exact ⟨by rwa [hview], by rw [honly, hanswer, hown]⟩

theorem Fits.only (h : Fits f c) (hu : Untaken f c) : Fits (f.only c.1) c := by
  intro ha
  have h := h ha
  have hu := hu ha
  obtain ⟨personaId, op⟩ := c
  cases op with
  | createValue id now label weight timeDiscount emotionAmplifier =>
    intro hnone
    rw [only_eq_self hu] at hnone
    exact h hnone
  | updateValue now id patch =>
    intro v hv
    rw [held_only] at hv
    exact h v hv
  | getValueById id =>
    intro v hv
    rw [held_only] at hv
    exact h v hv
  | getAllValues =>
    intro id v hv
    rw [held_only] at hv
    exact h id v hv
  | deleteValue id | deleteAllValues => trivial
  | upsertValue value => exact h

theorem sql_follows (rows : ValueRows) (h : Fits rows.get? c) : SqlFollows c rows :=
  (sql_step c rows).resolve_right (fun hn => hn.1 h) |>.2

theorem sql_isolated (rows : ValueRows) (h : Fits rows.get? c) (hu : Untaken rows.get? c) :
    Isolated sqlExecutors.step (fun rows => rows.get?) sqlOnly rows c := by
  have hget : (sqlOnly c.1 rows).get? = Values.only c.1 rows.get? := funext fun id => RowMap.get?_keep
  obtain ⟨hanswer, hview⟩ := sql_follows rows h
  obtain ⟨honly, -⟩ := sql_follows (sqlOnly c.1 rows) (hget ▸ h.only hu)
  rw [hget] at honly
  obtain ⟨hothers, hown⟩ := (values_isolated_iff rows.get? c).2 hu
  exact ⟨by rwa [hview], by rw [honly, hanswer, hown]⟩

/-! ## Clients -/

/-- The three hosts serve a client of one persona alike. -/
structure AgreeAlone (personaId : String) (client : Client ValueOp ValueAnswer) : Prop where
  sql_web : (client.run (fun op => sqlExecutors.step (personaId, op)) RowMap.empty).2 =
    (client.run (fun op => webExecutors.step (personaId, op)) none).2
  memory_web : (client.run (fun op => memoryExecutors.step (personaId, op)) .empty).2 =
    (client.run (fun op => webExecutors.step (personaId, op)) none).2
  sql_web_values : (client.run (fun op => sqlExecutors.step (personaId, op)) RowMap.empty).1.get? =
    webView (client.run (fun op => webExecutors.step (personaId, op)) none).1
  memory_web_values :
    memoryView personaId (client.run (fun op => memoryExecutors.step (personaId, op)) .empty).1 =
      webView (client.run (fun op => webExecutors.step (personaId, op)) none).1

/-- SQL and the web adapter serve a client of several personas alike, and keep them apart. -/
structure AgreeApart (client : Client (String × ValueOp) ValueAnswer) : Prop where
  sql_web : (client.run sqlExecutors.step RowMap.empty).2 = (client.run webExecutors.step none).2
  sql_web_values : (client.run sqlExecutors.step RowMap.empty).1.get? =
    webView (client.run webExecutors.step none).1
  sql_apart : client.Meets sqlExecutors.step
    (Isolated sqlExecutors.step (fun rows => rows.get?) sqlOnly) RowMap.empty
  web_apart : client.Meets webExecutors.step (Isolated webExecutors.step webView webOnly) none

theorem sql_alike : AlikeUnder sqlExecutors.step webExecutors.step (fun rows t => rows.get? = webView t)
    (fun t c => Fits (webView t) c) := by
  refine ⟨fun rows t c hR => ?_, fun rows t c hR hC => ?_⟩
  · obtain ⟨hweb, -⟩ := web_step c t
    rw [hweb, ← hR]
    obtain ⟨hfits, hf⟩ | ⟨hfits, hne⟩ := sql_step c rows
    · exact iff_of_true hf.1 hfits
    · exact iff_of_false hne hfits
  · obtain ⟨-, hweb⟩ := web_step c t
    have hf := sql_follows rows (hR ▸ hC)
    rw [hweb, ← hR]
    exact hf.2

theorem sql_alike_alone (personaId : String) :
    AlikeUnder (fun op => sqlExecutors.step (personaId, op)) (fun op => webExecutors.step (personaId, op))
      (fun rows t => rows.get? = webView t) (fun t op => Fits (webView t) (personaId, op)) :=
  ⟨fun rows t op hR => sql_alike.answer rows t (personaId, op) hR,
    fun rows t op hR hC => sql_alike.state rows t (personaId, op) hR hC⟩

theorem memory_alike (personaId : String) :
    AlikeUnder (fun op => memoryExecutors.step (personaId, op)) (fun op => webExecutors.step (personaId, op))
      (fun s t => memoryView personaId s = webView t) (fun _ _ => True) := by
  refine ⟨fun s t op hR => ?_, fun s t op hR _ => ?_⟩
  · rw [(memory_step personaId op s).1, (web_step (personaId, op) t).1, hR]
    exact iff_of_true rfl trivial
  · rw [(memory_step personaId op s).2, (web_step (personaId, op) t).2, hR]

theorem agreeAlone_iff (personaId : String) (client : Client ValueOp ValueAnswer) :
    AgreeAlone personaId client ↔ client.Meets (fun op => webExecutors.step (personaId, op))
      (fun t op => Fits (webView t) (personaId, op)) none := by
  have hsql : _ ↔ client.Meets _ _ none :=
    Client.events_eq_iff (sql_alike_alone personaId) (s := RowMap.empty) (t := none) rfl
  have hall : client.Meets (fun op => webExecutors.step (personaId, op)) (fun _ _ => True) none :=
    Client.meets_of_forall fun _ _ => trivial
  constructor
  · exact fun h => hsql.1 h.sql_web
  · exact fun h => {
      sql_web := hsql.2 h
      memory_web := (Client.events_eq_iff (memory_alike personaId) rfl).2 hall
      sql_web_values := Client.run_of_meets (sql_alike_alone personaId) rfl h
      memory_web_values := Client.run_of_meets (memory_alike personaId) rfl hall }

theorem agreeApart_iff (client : Client (String × ValueOp) ValueAnswer) :
    AgreeApart client ↔ client.Meets webExecutors.step
      (fun t c => Fits (webView t) c ∧ Untaken (webView t) c) none := by
  have hsql : _ ↔ client.Meets _ _ none :=
    Client.events_eq_iff sql_alike (s := RowMap.empty) (t := none) rfl
  have hweb : client.Meets webExecutors.step (Isolated webExecutors.step webView webOnly) none ↔
      client.Meets webExecutors.step (fun t c => Untaken (webView t) c) none :=
    Client.meets_congr fun t c => web_isolated_iff c t
  rw [Client.meets_and]
  constructor
  · exact fun h => ⟨hsql.1 h.sql_web, hweb.1 h.web_apart⟩
  · rintro ⟨hfits, huntaken⟩
    exact {
      sql_web := hsql.2 hfits
      sql_web_values := Client.run_of_meets sql_alike rfl hfits
      sql_apart := Client.meets_left sql_alike
        (fun rows t c hR hC hE => sql_isolated rows (hR ▸ hC) (hR ▸ hE)) rfl hfits huntaken
      web_apart := hweb.2 huntaken }

end ChronoSynth.Edge
