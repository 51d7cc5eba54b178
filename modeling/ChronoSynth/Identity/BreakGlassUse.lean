import Mathlib.Tactic.Linarith
import ChronoSynth.Identity.BreakGlassService

/-!
# Single use of break-glass tokens

What is to hold of every run: one call accepts a token at most, before its expiry and for the scope and the
tenant it was issued for; there is a row for what was accepted and has not been pruned since, and for nothing
else; an accepted token that has not expired has its row (`UsedOnce`).

A row is pruned long after its token has expired, so a token can only be accepted twice by a call that has
looked at the clock before the expiry and consumes after it. Tokens are used as they are to in exactly the
runs in which no consumption comes after the expiry (`usedOnce_iff`).
-/

namespace ChronoSynth.BreakGlass

/-- The transactions of a run, the last first. -/
abbrev History := List (BreakGlassCmd × BreakGlassReply)

/-! ## Acceptances -/

/-- A token has been consumed for a request. -/
structure Acceptance where
  payload : BreakGlassPayload
  requiredScope : BreakGlassScope
  requestedTenantId : String
  consumedAt : ℤ
  requestIp : Option String
  /-- When it was. -/
  clock : ℤ
  deriving DecidableEq, Repr

def Acceptance.row (a : Acceptance) : Consumption := a.payload.consumption a.consumedAt a.requestIp

def acceptance : BreakGlassCmd × BreakGlassReply → Option Acceptance
  | (.consume payload requiredScope requestedTenantId consumedAt requestIp, reply) =>
    if reply.rowsAffected = 1 then
      some { payload, requiredScope, requestedTenantId, consumedAt, requestIp, clock := reply.clock }
    else none
  | _ => none

/-- The transaction is a prune that takes the row. -/
def Prunes : BreakGlassCmd × BreakGlassReply → Consumption → Prop
  | (.pruneConsumptions before, _), row => row.consumedAt < before
  | _, _ => False

/-- The row is that of an acceptance since which nothing has pruned it. -/
def Standing : History → Consumption → Prop
  | [], _ => False
  | x :: h, row => (∃ a, acceptance x = some a ∧ a.row = row) ∨ Standing h row ∧ ¬ Prunes x row

/-- The call has accepted the token. -/
def Accepted (log : History) (payload : BreakGlassPayload) : Prop :=
  ∃ x ∈ log, ∃ a, acceptance x = some a ∧ a.payload = payload

structure UsedOnce (p : BreakGlassPool) (h : History) : Prop where
  /-- A token is accepted by one call. -/
  once : ∀ (i j : ℕ) (th th' : BreakGlassThread), p.threads[i]? = some th → p.threads[j]? = some th' →
    ∀ payload, Accepted th.log payload → Accepted th'.log payload → i = j
  /-- No call accepts it twice. -/
  nodup : ((h.filterMap acceptance).map Acceptance.payload).Nodup
  inTime : ∀ a ∈ h.filterMap acceptance, a.clock < a.payload.exp
  purpose : ∀ a ∈ h.filterMap acceptance, a.payload ∈ p.db.issued ∧ a.payload.scope = a.requiredScope ∧
    a.payload.tenantId = a.requestedTenantId
  rows : ∀ row, row ∈ p.db.consumptions ↔ Standing h row
  /-- An accepted token is not acceptable until it has expired. -/
  final : ∀ a ∈ h.filterMap acceptance, p.db.clock < a.payload.exp → p.db.Consumed a.payload
  /-- The calls that return a token are those that have accepted it. -/
  returned : ∀ th ∈ p.threads, th.prog.Done → ∀ payload,
    th.prog = .ret (.accepted payload) ↔ Accepted th.log payload

variable {e : Env} {cmd : BreakGlassCmd} {s s' : BreakGlassState} {payload : BreakGlassPayload} {h : History}
  {row : Consumption} {p : BreakGlassPool} {m : BreakGlassMove}

/-! ## What the calls agree on -/

/-- The tokens that have been issued. -/
structure Issued (s : BreakGlassState) : Prop where
  numbered : ∀ (i : ℕ) (payload : BreakGlassPayload), s.issued[i]? = some payload → payload.jti = i
  begun : ∀ payload ∈ s.issued, payload.iat ≤ s.clock
  short : ∀ payload ∈ s.issued, payload.exp ≤ payload.iat + MAX_TTL_MS

/-- What a call guarantees of a command. -/
def Agreed (cmd : BreakGlassCmd) (s : BreakGlassState) : Prop :=
  match cmd with
  | .now | .cadence _ => True
  | .issue _ _ _ _ ttlMs => ttlMs ≤ MAX_TTL_MS
  | .consume payload requiredScope requestedTenantId consumedAt _ =>
    payload ∈ s.issued ∧ payload.iat ≤ consumedAt ∧ consumedAt ≤ s.clock ∧ consumedAt < payload.exp ∧
      payload.scope = requiredScope ∧ payload.tenantId = requestedTenantId
  | .pruneConsumptions before => before ≤ s.clock - 2 * MAX_TTL_MS

/-- Tokens stay issued, and the clock does not go back. -/
def tokens : Discipline BreakGlassState BreakGlassCmd Env where
  inv := Issued
  ext s s' := s.issued ⊆ s'.issued ∧ s.clock ≤ s'.clock
  guar := Agreed
  may _ _ _ := True
  ext_refl _ := ⟨List.Subset.refl _, le_refl _⟩
  ext_trans h h' := ⟨List.Subset.trans h.1 h'.1, h.2.trans h'.2⟩

theorem exec_clock : (exec e cmd s).1.clock = s.clock + e.elapsed := by
  cases cmd with
  | now | issue | pruneConsumptions => rfl
  | cadence replica =>
    simp only [exec, execNow]
    split <;> rfl
  | consume payload requiredScope requestedTenantId consumedAt requestIp =>
    simp only [exec, execNow]
    split
    · rfl
    · split <;> rfl

theorem exec_reply_clock : (exec e cmd s).2.clock = s.clock + e.elapsed := by
  cases cmd with
  | now | issue | pruneConsumptions => rfl
  | cadence replica =>
    simp only [exec, execNow]
    split <;> rfl
  | consume payload requiredScope requestedTenantId consumedAt requestIp =>
    simp only [exec, execNow]
    split
    · rfl
    · split <;> rfl

theorem exec_issued : (exec e cmd s).1.issued = s.issued ∨
    ∃ requestedBy approvalId scope tenantId ttlMs, cmd = .issue requestedBy approvalId scope tenantId ttlMs ∧
      (exec e cmd s).1.issued = s.issued ++ [{
        jti := s.issued.length, iat := s.clock + e.elapsed, exp := s.clock + e.elapsed + ttlMs, requestedBy,
        approvalId, scope, tenantId }] := by
  cases cmd with
  | now | pruneConsumptions => exact .inl rfl
  | issue requestedBy approvalId scope tenantId ttlMs =>
    exact .inr ⟨requestedBy, approvalId, scope, tenantId, ttlMs, rfl, rfl⟩
  | cadence replica =>
    left
    simp only [exec, execNow]
    split <;> rfl
  | consume payload requiredScope requestedTenantId consumedAt requestIp =>
    left
    simp only [exec, execNow]
    split
    · rfl
    · split <;> rfl

theorem clock_le : s.clock ≤ (exec e cmd s).1.clock := by
  rw [exec_clock]
  omega

theorem issued_subset : s.issued ⊆ (exec e cmd s).1.issued := by
  obtain heq | ⟨_, _, _, _, _, -, heq⟩ := @exec_issued e cmd s
  · rw [heq]
    exact List.Subset.refl _
  · rw [heq]
    exact List.subset_append_left _ _

theorem tokens_kept : tokens.Kept exec := by
  refine fun e cmd s hs hg _ => ⟨?_, issued_subset, clock_le⟩
  obtain heq | ⟨requestedBy, approvalId, scope, tenantId, ttlMs, rfl, heq⟩ :=
    @exec_issued e cmd s
  · refine ⟨?_, ?_, ?_⟩
    · rw [heq]
      exact hs.numbered
    · rw [heq]
      exact fun payload hp => (hs.begun payload hp).trans clock_le
    · rw [heq]
      exact hs.short
  · refine ⟨fun i payload hi => ?_, fun payload hp => ?_, fun payload hp => ?_⟩
    · rw [heq] at hi
      by_cases hlt : i < s.issued.length
      · rw [List.getElem?_append_left hlt] at hi
        exact hs.numbered i payload hi
      · rw [List.getElem?_append_right (Nat.le_of_not_lt hlt)] at hi
        obtain ⟨hlast, rfl⟩ := List.getElem?_eq_some_iff.1 hi
        simp only [List.length_singleton] at hlast
        simp only [List.getElem_singleton]
        omega
    · rw [heq] at hp
      rcases List.mem_append.1 hp with hp | hp
      · exact (hs.begun payload hp).trans clock_le
      · obtain rfl := List.mem_singleton.1 hp
        rw [exec_clock]
    · rw [heq] at hp
      rcases List.mem_append.1 hp with hp | hp
      · exact hs.short payload hp
      · obtain rfl := List.mem_singleton.1 hp
        exact add_le_add_right hg _

/-! ## The commands -/

def GoesThrough (e : Env) (s : BreakGlassState) (payload : BreakGlassPayload) : Prop :=
  ¬ s.Consumed payload ∧ e.failure = none

instance : Decidable (GoesThrough e s payload) := inferInstanceAs (Decidable (_ ∧ _))

section
variable {requiredScope : BreakGlassScope} {requestedTenantId : String} {consumedAt before : ℤ}
  {requestIp : Option String}

theorem consume_yes (hgo : GoesThrough e s payload) :
    exec e (.consume payload requiredScope requestedTenantId consumedAt requestIp) s =
      ({ s with
          clock := s.clock + e.elapsed
          consumptions := s.consumptions ++ [payload.consumption consumedAt requestIp] },
        .affected 1 (s.clock + e.elapsed)) := by
  simp only [exec, execNow, hgo.2]
  exact if_neg hgo.1

theorem consume_no (hgo : ¬ GoesThrough e s payload) :
    let r := exec e (.consume payload requiredScope requestedTenantId consumedAt requestIp) s
    r.1.consumptions = s.consumptions ∧ r.2.rowsAffected = 0 := by
  intro r
  simp only [r, exec, execNow]
  split
  · exact ⟨rfl, rfl⟩
  next hnot =>
    split
    · exact ⟨rfl, rfl⟩
    next hfail => exact absurd ⟨hnot, hfail⟩ hgo

theorem acceptance_yes (hgo : GoesThrough e s payload) :
    acceptance (.consume payload requiredScope requestedTenantId consumedAt requestIp,
      (exec e (.consume payload requiredScope requestedTenantId consumedAt requestIp) s).2) =
      some { payload, requiredScope, requestedTenantId, consumedAt, requestIp, clock := s.clock + e.elapsed } := by
  rw [consume_yes hgo]
  rfl

theorem acceptance_no (hgo : ¬ GoesThrough e s payload) :
    acceptance (.consume payload requiredScope requestedTenantId consumedAt requestIp,
      (exec e (.consume payload requiredScope requestedTenantId consumedAt requestIp) s).2) = none := by
  rw [acceptance, (consume_no hgo).2]
  rfl

end

/-! ## The calls keep to it -/

/-- How a call ends: it returns the token it has accepted, and another call or one that throws has accepted
none. -/
def Ends (log : History) (r : Except BreakGlassError BreakGlassResult) (_ : BreakGlassState) : Prop :=
  ∀ payload, r = .ok (.accepted payload) ↔ Accepted log payload

theorem ends_of_none {r : Except BreakGlassError BreakGlassResult} {log : History}
    (hr : ∀ payload, r ≠ .ok (.accepted payload)) (hlog : ∀ x ∈ log, acceptance x = none) :
    Ends log r s := by
  refine fun payload => iff_of_false (hr payload) ?_
  rintro ⟨x, hx, a, ha, -⟩
  rw [hlog x hx] at ha
  cases ha

theorem prune_meets {l : History} {now : ℤ} {α : Type} {g : ℕ → BreakGlassProg α}
    {Q : History → Except BreakGlassError α → BreakGlassState → Prop} (hnow : now ≤ s.clock)
    (hg : ∀ x n s', acceptance x = none → tokens.ext s s' → (g n).Meets tokens exec Q (l ++ [x]) s') :
    (pruneExpired now >>= g).Meets tokens exec Q l s := by
  refine fun s' hs' _ => ⟨sub_le_sub_right (hnow.trans hs'.2) _, fun e _ => ?_⟩
  exact hg _ _ _ rfl (tokens.ext_trans hs' ⟨issued_subset, clock_le⟩)

/-- The first part of a verification: the replica prunes now and then. -/
theorem cadence_meets {replica : ℕ} {α : Type} {g : Unit → BreakGlassProg α}
    {Q : History → Except BreakGlassError α → BreakGlassState → Prop}
    (hg : ∀ l s', (∀ x ∈ l, acceptance x = none) → tokens.ext s s' → (g ()).Meets tokens exec Q l s') :
    (pruneExpiredCadenced replica >>= g).Meets tokens exec Q [] s := by
  refine fun s₁ hs₁ _ => ⟨trivial, fun e _ => ?_⟩
  have hs₂ : tokens.ext s (exec e (.cadence replica) s₁).1 :=
    tokens.ext_trans hs₁ ⟨issued_subset, clock_le⟩
  have hclock : (exec e (.cadence replica) s₁).2.clock ≤ (exec e (.cadence replica) s₁).1.clock := by
    rw [exec_clock, exec_reply_clock]
  change Prog.Meets tokens exec Q
    ((if (exec e (.cadence replica) s₁).2.due = true then
      pruneExpired (exec e (.cadence replica) s₁).2.clock >>= fun _ => pure () else pure ()) >>= g) _ _
  split
  · rw [Prog.bind_assoc]
    refine prune_meets hclock fun x n s₃ hx hs₃ => ?_
    refine hg _ _ (fun y hy => ?_) (tokens.ext_trans hs₂ hs₃)
    rcases List.mem_append.1 hy with hy | hy
    · obtain rfl := List.mem_singleton.1 hy
      rfl
    · obtain rfl := List.mem_singleton.1 hy
      exact hx
  · refine hg _ _ (fun y hy => ?_) hs₂
    obtain rfl := List.mem_singleton.1 hy
    rfl

theorem reply_meets {l : History} {requiredScope : BreakGlassScope} {requestedTenantId : String}
    {consumedAt : ℤ} {requestIp : Option String} (hl : ∀ x ∈ l, acceptance x = none) :
    let cmd := BreakGlassCmd.consume payload requiredScope requestedTenantId consumedAt requestIp
    ((match (exec e cmd s).2.failure with
      | some error => .throw (.evidence error)
      | none => if (exec e cmd s).2.rowsAffected = 0 then .throw .replayDetected else pure payload :
        BreakGlassProg BreakGlassPayload) >>= fun payload => pure (.accepted payload)).Meets tokens exec Ends
      (l ++ [(cmd, (exec e cmd s).2)]) s' := by
  intro cmd
  by_cases hgo : GoesThrough e s payload
  · rw [consume_yes hgo]
    refine fun _ _ _ payload' => ⟨fun h => ?_, ?_⟩
    · cases h
      exact ⟨_, List.mem_append_right _ (List.mem_singleton_self _), _, rfl, rfl⟩
    · rintro ⟨x, hx, a, ha, rfl⟩
      rcases List.mem_append.1 hx with hx | hx
      · rw [hl x hx] at ha
        cases ha
      · obtain rfl := List.mem_singleton.1 hx
        cases ha
        rfl
  · have hnone : ∀ x ∈ l ++ [(cmd, (exec e cmd s).2)], acceptance x = none := by
      intro x hx
      rcases List.mem_append.1 hx with hx | hx
      · exact hl x hx
      · obtain rfl := List.mem_singleton.1 hx
        exact acceptance_no hgo
    split
    · exact fun _ _ _ => ends_of_none (fun _ h => by cases h) hnone
    · rw [if_pos (consume_no hgo).2]
      exact fun _ _ _ => ends_of_none (fun _ h => by cases h) hnone

theorem verify_meets {replica : ℕ} {token : Option BreakGlassPayload} {requiredScope : BreakGlassScope}
    {requestedTenantId : String} {requestIp : Option String} :
    ((BreakGlassCall.verify replica token requiredScope requestedTenantId requestIp).start).Meets tokens exec Ends
      [] s := by
  rw [BreakGlassCall.start]
  unfold verify
  rw [Prog.bind_assoc]
  refine cadence_meets fun l s₁ hl _ => ?_
  have hthrow : ∀ (l : History) (err : BreakGlassError) s, (∀ x ∈ l, acceptance x = none) →
      (Prog.throw err : BreakGlassProg BreakGlassResult).Meets tokens exec Ends l s :=
    fun l err s hl s' _ _ => ends_of_none (fun _ h => by cases h) hl
  cases token with
  | none => exact hthrow _ _ _ hl
  | some payload =>
    unfold deserialise now
    simp only [Prog.bind_assoc]
    refine .query fun s₂ _ _ => ?_
    split
    next hgenuine =>
      -- a token is issued, and what the clock says after that is not before
      have hissued : payload ∈ s₂.issued := of_decide_eq_true hgenuine
      simp only [Prog.pure_eq, Prog.ret_bind]
      refine .transaction fun s₃ hs₃ hinv₃ => ⟨trivial, fun e _ => ?_⟩
      have hl₃ : ∀ x ∈ l ++ [(.now, (exec e .now s₃).2)], acceptance x = none := by
        intro x hx
        rcases List.mem_append.1 hx with hx | hx
        · exact hl x hx
        · obtain rfl := List.mem_singleton.1 hx
          rfl
      have hiat : payload.iat ≤ (exec e .now s₃).2.clock := by
        rw [exec_reply_clock, ← @exec_clock _ .now]
        exact (hinv₃.begun payload (hs₃.1 hissued)).trans clock_le
      split
      · exact hthrow _ _ _ hl₃
      next hexp =>
        split
        · exact hthrow _ _ _ hl₃
        next hscope =>
          split
          · exact hthrow _ _ _ hl₃
          next htenant =>
            rw [Prog.bind_assoc]
            refine .transaction fun s₄ hs₄ _ => ⟨⟨hs₄.1 (issued_subset (hs₃.1 hissued)), hiat, ?_,
              lt_of_not_ge hexp, not_not.1 hscope, not_not.1 htenant⟩, fun e' _ => ?_⟩
            · rw [exec_reply_clock, ← @exec_clock _ .now]
              exact hs₄.2
            · exact reply_meets hl₃
    next => exact hthrow _ _ _ hl

theorem BreakGlassCall.start_meets (c : BreakGlassCall) (s : BreakGlassState) :
    c.start.Meets tokens exec Ends [] s := by
  have hnone : ∀ (err : BreakGlassError) s,
      (Prog.throw err : BreakGlassProg BreakGlassResult).Meets tokens exec Ends [] s :=
    fun err s s' _ _ => ends_of_none (fun _ h => by cases h) fun _ hx => (List.not_mem_nil hx).elim
  cases c with
  | issue requestedBy approvalId scope tenantId ttlMs =>
    rw [start]
    unfold BreakGlass.issue
    split
    · exact hnone _ _
    · dsimp only
      split
      · exact hnone _ _
      next httl =>
        rw [Prog.bind_assoc]
        refine .transaction fun s' _ _ => ⟨le_of_not_gt fun hlt => httl (.inl hlt), fun e _ => ?_⟩
        exact fun _ _ _ => ends_of_none (fun _ h => by cases h) fun x hx => by
          obtain rfl := List.mem_singleton.1 hx
          rfl
  | verify => exact verify_meets
  | prune =>
    rw [start]
    unfold now
    simp only [Prog.bind_assoc]
    refine .transaction fun s₁ _ _ => ⟨trivial, fun e _ => ?_⟩
    refine prune_meets (by rw [exec_clock, exec_reply_clock]) fun x n s₂ hx _ => ?_
    refine fun _ _ _ => ends_of_none (fun _ h => by cases h) fun y hy => ?_
    rcases List.mem_append.1 hy with hy | hy
    · obtain rfl := List.mem_singleton.1 hy
      rfl
    · obtain rfl := List.mem_singleton.1 hy
      exact hx

/-! ## What the table and the history have in common -/

/-- A consumption that nothing stands in the way of comes before the token's expiry. -/
def InTime (e : Env) (cmd : BreakGlassCmd) (s : BreakGlassState) : Prop :=
  match cmd with
  | .consume payload _ _ _ _ => GoesThrough e s payload → s.clock + e.elapsed < payload.exp
  | _ => True

instance : Decidable (InTime e cmd s) := by
  unfold InTime
  split <;> infer_instance

/-- The acceptances of a run. -/
abbrev acceptances (h : History) : List Acceptance := h.filterMap acceptance

structure Spent (s : BreakGlassState) (h : History) : Prop where
  nodup : ((acceptances h).map Acceptance.payload).Nodup
  inTime : ∀ a ∈ acceptances h, a.clock < a.payload.exp
  purpose : ∀ a ∈ acceptances h, a.payload ∈ s.issued ∧ a.payload.scope = a.requiredScope ∧
    a.payload.tenantId = a.requestedTenantId
  begun : ∀ a ∈ acceptances h, a.payload.iat ≤ a.consumedAt
  rows : ∀ row, row ∈ s.consumptions ↔ Standing h row
  /-- Only the rows of tokens that have expired are pruned. -/
  gone : ∀ a ∈ acceptances h, a.row ∉ s.consumptions → a.payload.exp < s.clock

namespace Spent

theorem started {clock : ℤ} : Spent (.started clock) [] :=
  ⟨List.nodup_nil, fun _ h => (List.not_mem_nil h).elim, fun _ h => (List.not_mem_nil h).elim,
    fun _ h => (List.not_mem_nil h).elim, fun _ => Iff.rfl.trans (by simp [Standing, BreakGlassState.started]),
    fun _ h => (List.not_mem_nil h).elim⟩

theorem quiet (hs : Spent s h) {x : BreakGlassCmd × BreakGlassReply} (hacc : acceptance x = none)
    (hprune : ∀ row, ¬ Prunes x row) (hrows : s'.consumptions = s.consumptions) (hext : tokens.ext s s') :
    Spent s' (x :: h) := by
  have heq : acceptances (x :: h) = acceptances h := List.filterMap_cons_none hacc
  refine ⟨?_, ?_, ?_, ?_, ?_, ?_⟩
  · rw [heq]
    exact hs.nodup
  · rw [heq]
    exact hs.inTime
  · rw [heq]
    exact fun a ha => ⟨hext.1 (hs.purpose a ha).1, (hs.purpose a ha).2⟩
  · rw [heq]
    exact hs.begun
  · intro row
    rw [hrows, hs.rows row, Standing, hacc]
    simp [hprune row]
  · rw [heq, hrows]
    exact fun a ha hrow => (hs.gone a ha hrow).trans_le hext.2

theorem consumed (hs : Spent s h) {a : Acceptance} (ha : a ∈ acceptances h) (hclock : s.clock ≤ a.payload.exp) :
    s.Consumed a.payload := by
  refine ⟨a.row, ?_, rfl, rfl⟩
  by_contra hrow
  exact absurd (hs.gone a ha hrow) (not_lt_of_ge hclock)

section
variable {requiredScope : BreakGlassScope} {requestedTenantId : String} {consumedAt before : ℤ}
  {requestIp : Option String}

theorem consume (hs : Spent s h) (hgo : GoesThrough e s payload) (hexp : s.clock + e.elapsed < payload.exp)
    (hg : Agreed (.consume payload requiredScope requestedTenantId consumedAt requestIp) s) :
    let r := exec e (.consume payload requiredScope requestedTenantId consumedAt requestIp) s
    Spent r.1 ((.consume payload requiredScope requestedTenantId consumedAt requestIp, r.2) :: h) := by
  obtain ⟨hissued, hiat, hat, -, hscope, htenant⟩ := hg
  intro r
  have hacc := @acceptance_yes _ _ _ requiredScope requestedTenantId consumedAt requestIp hgo
  have heq := List.filterMap_cons_some (l := h) hacc
  have hr := @consume_yes _ _ _ requiredScope requestedTenantId consumedAt requestIp hgo
  have hrow : r.1.consumptions = s.consumptions ++ [payload.consumption consumedAt requestIp] := by
    simp only [r, hr]
  have hsub : r.1.issued = s.issued := by
    simp only [r, hr]
  refine ⟨?_, ?_, ?_, ?_, ?_, ?_⟩
  · rw [acceptances, heq, List.map_cons, List.nodup_cons]
    refine ⟨fun hmem => ?_, hs.nodup⟩
    -- its row could only have been pruned after its expiry
    obtain ⟨a, ha, rfl⟩ := List.mem_map.1 hmem
    have hclock : s.clock ≤ a.payload.exp := by
      change s.clock + e.elapsed < a.payload.exp at hexp
      omega
    exact hgo.1 (hs.consumed ha hclock)
  · rw [acceptances, heq]
    exact List.forall_mem_cons.2 ⟨hexp, hs.inTime⟩
  · rw [acceptances, heq, hsub]
    exact List.forall_mem_cons.2 ⟨⟨hissued, hscope, htenant⟩, hs.purpose⟩
  · rw [acceptances, heq]
    exact List.forall_mem_cons.2 ⟨hiat, hs.begun⟩
  · intro row
    rw [hrow, List.mem_append, List.mem_singleton, hs.rows row, Standing, hacc]
    simp [Prunes, Acceptance.row, or_comm, eq_comm]
  · rw [acceptances, heq, hrow]
    refine List.forall_mem_cons.2 ⟨fun hnot => absurd ?_ hnot, fun a ha hnot => ?_⟩
    · simp [Acceptance.row]
    · exact (hs.gone a ha fun hmem => hnot (List.mem_append_left _ hmem)).trans_le clock_le

theorem prune (hs : Spent s h) (hinv : Issued s) (hg : Agreed (.pruneConsumptions before) s) :
    let r := exec e (.pruneConsumptions before) s
    Spent r.1 ((.pruneConsumptions before, r.2) :: h) := by
  intro r
  have heq : acceptances ((.pruneConsumptions before, r.2) :: h) = acceptances h := rfl
  refine ⟨hs.nodup, hs.inTime, hs.purpose, hs.begun, fun row => ?_, fun a ha hnot => ?_⟩
  · change row ∈ s.consumptions.filter _ ↔ _
    rw [List.mem_filter, hs.rows row, Standing]
    simp [acceptance, Prunes]
  · change a ∈ acceptances h at ha
    by_cases hmem : a.row ∈ s.consumptions
    · have hlt : a.consumedAt < before := by
        by_contra hge
        exact hnot (List.mem_filter.2 ⟨hmem, decide_eq_true hge⟩)
      have hshort := hinv.short _ (hs.purpose a ha).1
      have hbegun := hs.begun a ha
      have hclock : s.clock ≤ r.1.clock := clock_le
      simp only [Agreed, MAX_TTL_MS] at hg hshort
      omega
    · exact (hs.gone a ha hmem).trans_le clock_le

end

/-- **Step lemma.** -/
theorem exec (hs : Spent s h) (hinv : Issued s) (hg : Agreed cmd s) (hC : InTime e cmd s) :
    Spent (BreakGlass.exec e cmd s).1 ((cmd, (BreakGlass.exec e cmd s).2) :: h) := by
  have hext : tokens.ext s (BreakGlass.exec e cmd s).1 := ⟨issued_subset, clock_le⟩
  cases cmd with
  | now | issue => exact hs.quiet rfl (fun _ => id) rfl hext
  | cadence replica =>
    refine hs.quiet rfl (fun _ => id) ?_ hext
    simp only [BreakGlass.exec, execNow]
    split <;> rfl
  | consume payload requiredScope requestedTenantId consumedAt requestIp =>
    by_cases hgo : GoesThrough e s payload
    · exact hs.consume hgo (hC hgo) hg
    · exact hs.quiet (acceptance_no hgo) (fun _ => id) (consume_no hgo).1 hext
  | pruneConsumptions before => exact hs.prune hinv hg

end Spent

/-! ## Runs -/

/-- The calls with the history of their transactions. -/
abbrev recorded : BreakGlassPool × History → BreakGlassMove → BreakGlassPool × History :=
  noting (Pool.step BreakGlassCall.start exec) (Pool.logging (Pool.record exec))

/-- Nobody has called yet. -/
abbrev init (clock : ℤ) : BreakGlassPool × History := (Pool.idle (.started clock), [])

/-- The invariant of the runs in which every consumption is in time. -/
structure Spending (x : BreakGlassPool × History) : Prop where
  sound : x.1.Sound tokens exec fun _ => Ends
  logged : ∀ entry, entry ∈ x.2 ↔ x.1.Logged entry
  once : ∀ (i j : ℕ) (th th' : BreakGlassThread), x.1.threads[i]? = some th → x.1.threads[j]? = some th' →
    ∀ payload, Accepted th.log payload → Accepted th'.log payload → i = j
  spent : Spent x.1.db x.2

namespace Spending

variable {x : BreakGlassPool × History}

theorem init {clock : ℤ} : Spending (init clock) where
  sound := .idle {
    numbered := fun _ _ h => by cases h
    begun := fun _ h => (List.not_mem_nil h).elim
    short := fun _ h => (List.not_mem_nil h).elim }
  logged _ := by simp [Pool.Logged, Pool.idle]
  once _ _ _ _ h := by cases h
  spent := .started

theorem usedOnce (hx : Spending x) : UsedOnce x.1 x.2 where
  once := hx.once
  nodup := hx.spent.nodup
  inTime := hx.spent.inTime
  purpose := hx.spent.purpose
  rows := hx.spent.rows
  final a ha hclock := hx.spent.consumed ha hclock.le
  returned th hth hdone payload := by
    have hmeets := hx.sound.meets th hth
    cases hprog : th.prog with
    | ret a =>
      rw [hprog] at hmeets
      refine Iff.trans ?_ (hmeets x.1.db (tokens.ext_refl _) hx.sound.inv payload)
      simp
    | throw err =>
      rw [hprog] at hmeets
      refine Iff.trans ?_ (hmeets x.1.db (tokens.ext_refl _) hx.sound.inv payload)
      simp
    | read f | txn t k =>
      rw [hprog] at hdone
      exact hdone.elim

theorem mem_acceptances (hx : Spending x) {th : BreakGlassThread} (hth : th ∈ x.1.threads) (hacc : Accepted th.log payload) :
    payload ∈ (acceptances x.2).map Acceptance.payload := by
  obtain ⟨entry, hentry, a, ha, rfl⟩ := hacc
  exact List.mem_map_of_mem (List.mem_filterMap.2 ⟨entry, (hx.logged entry).2 ⟨th, hth, hentry⟩, ha⟩)

/-- **Step lemma.** -/
theorem step (hx : Spending x) (hC : x.1.AtCommit InTime m) : Spending (recorded x m) := by
  have hspent : Spent (recorded x m).1.db (recorded x m).2 := by
    obtain ⟨-, hdb, hh⟩ | ⟨e, cmd, hm, hdb, hh⟩ :=
      Pool.logging_cases BreakGlassCall.start exec (Pool.record exec) x m
    · rw [hdb, hh]
      exact hx.spent
    · rw [hdb, hh]
      exact hx.spent.exec hx.sound.inv (hx.sound.guar hm) (hC e cmd hm)
  have hsound : (recorded x m).1.Sound tokens exec fun _ => Ends :=
    hx.sound.step tokens_kept (fun c s _ => c.start_meets s) fun _ _ _ => trivial
  refine ⟨hsound, Pool.recorded_step hx.logged, fun i j th th' hi hj payload hacc hacc' => ?_, hspent⟩
  -- whoever has just accepted the token is the first to
  have hcases : ∀ (i : ℕ) th, (recorded x m).1.threads[i]? = some th → Accepted th.log payload →
      (∃ th₀, x.1.threads[i]? = some th₀ ∧ Accepted th₀.log payload) ∨
      (∃ e, m = .go i e) ∧ payload ∉ (acceptances x.2).map Acceptance.payload := by
    intro i th hi hacc
    obtain (hnil | ⟨th₀, hi₀, -, hlog⟩) | ⟨e, cmd, l, k, rfl, hi, hlog⟩ := Pool.log_step hi
    · obtain ⟨_, hmem, -⟩ := hacc
      rw [hnil] at hmem
      cases hmem
    · exact .inl ⟨th₀, hi₀, hlog ▸ hacc⟩
    · obtain ⟨entry, hmem, a, ha, rfl⟩ := hacc
      rw [hlog] at hmem
      rcases List.mem_append.1 hmem with hmem | hmem
      · exact .inl ⟨_, hi, entry, hmem, a, ha, rfl⟩
      · obtain rfl := List.mem_singleton.1 hmem
        refine .inr ⟨⟨e, rfl⟩, ?_⟩
        have hh : (recorded x (.go i e)).2 = (cmd, (exec e cmd x.1.db).2) :: x.2 := by
          simp [recorded, noting, Pool.logging, Pool.committing, hi, Pool.record]
        have hnodup := hspent.nodup
        rw [hh, acceptances, List.filterMap_cons_some ha] at hnodup
        exact (List.nodup_cons.1 hnodup).1
  rcases hcases i th hi hacc with ⟨th₀, hi₀, hacc₀⟩ | ⟨⟨e, rfl⟩, hnew⟩
  · rcases hcases j th' hj hacc' with ⟨th₁, hj₁, hacc₁⟩ | ⟨-, hnew⟩
    · exact hx.once i j th₀ th₁ hi₀ hj₁ payload hacc₀ hacc₁
    · exact absurd (hx.mem_acceptances (List.mem_of_getElem? hi₀) hacc₀) hnew
  · rcases hcases j th' hj hacc' with ⟨th₁, hj₁, hacc₁⟩ | ⟨⟨e', hm⟩, -⟩
    · exact absurd (hx.mem_acceptances (List.mem_of_getElem? hj₁) hacc₁) hnew
    · exact (Move.go.inj hm).1

/-- A consumption that is too late accepts a token that has expired. -/
theorem need (hP : UsedOnce (recorded x m).1 (recorded x m).2) : x.1.AtCommit InTime m := by
  rintro e cmd hm
  cases cmd with
  | now | cadence | issue | pruneConsumptions => trivial
  | consume payload requiredScope requestedTenantId consumedAt requestIp =>
    intro hgo
    have hh : (recorded x m).2 = Pool.record exec x.2 e
        (.consume payload requiredScope requestedTenantId consumedAt requestIp) x.1.db := by
      simp [recorded, noting, Pool.logging, hm]
    exact hP.inTime _ (List.mem_filterMap.2 ⟨_, by rw [hh]; exact List.mem_cons_self, acceptance_yes hgo⟩)

end Spending

/-- **Break-glass tokens** are used as they are to in exactly the runs in which every consumption comes before
the token's expiry. -/
theorem usedOnce_iff (clock : ℤ) (ms : List BreakGlassMove) :
    Always recorded (fun x => UsedOnce x.1 x.2) (init clock) ms ↔
      Along recorded (fun x => x.1.AtCommit InTime) (init clock) ms :=
  always_iff_along (I := Spending) .init (fun _ hx => hx.usedOnce) (fun _ _ hx hC => hx.step hC)
    fun _ _ _ hP => Spending.need hP

/-- The `i`-th call makes `n` steps, without delay. -/
def steps (i n : ℕ) : List BreakGlassMove := List.replicate n (.go i (.after 0))

/-- Two replicas verify a token. One has looked at the clock when the other accepts it, and goes on after the row
has been pruned. -/
def stalled : List BreakGlassMove :=
  [.call (.issue "admin" "approval" .dataRestore "t" none)] ++ steps 0 1 ++
    [.call (.verify 0 (some ⟨0, 0, MAX_TTL_MS, "admin", "approval", .dataRestore, "t"⟩) .dataRestore "t" none),
      .call (.verify 1 (some ⟨0, 0, MAX_TTL_MS, "admin", "approval", .dataRestore, "t"⟩) .dataRestore "t" none)] ++
    steps 1 3 ++ steps 2 4 ++ [.call .prune, .go 3 (.after (2 * MAX_TTL_MS + 1).toNat)] ++ steps 3 1 ++ steps 1 1

theorem token_accepted_twice :
    ¬ ∀ clock ms, Always recorded (fun x => UsedOnce x.1 x.2) (init clock) ms := by
  intro h
  have htwice : ¬ ((acceptances (run recorded (init 0) stalled).2).map Acceptance.payload).Nodup := by
    decide +kernel
  exact htwice (h 0 stalled).last.nodup

end ChronoSynth.BreakGlass
