import MetricRegistry.Proofs.Resolution

/-! A resolution refuses a request without a key before anything else, and no later step fails
for want of a key (`NeverFails`, kept by every combinator of the state monad). -/

namespace MetricRegistry

/-- A computation that never fails with the error `e`, whatever state it starts from. -/
def NeverFails {ε σ α : Type} (e : ε) (m : EStateM ε σ α) : Prop := ∀ s s', m s ≠ .error e s'

-----------------------------------------------------------------------------------------
-- Failures through the monads
-----------------------------------------------------------------------------------------

namespace NeverFails

variable {ε σ α β : Type} {e : ε}

theorem bind {m : EStateM ε σ α} {f : α → EStateM ε σ β} (hm : NeverFails e m)
    (hf : ∀ a, NeverFails e (f a)) : NeverFails e (m >>= f) := by
  intro s s' h
  simp only [Bind.bind, EStateM.bind] at h
  split at h
  · exact hf _ _ _ h
  · rename_i s1 first
    cases h
    exact hm _ _ first

theorem pure (a : α) : NeverFails e (Pure.pure a : EStateM ε σ α) := by
  intro s s' h
  cases h

theorem get : NeverFails e (MonadState.get : EStateM ε σ σ) := by
  intro s s' h
  cases h

theorem set (t : σ) : NeverFails e (MonadStateOf.set t : EStateM ε σ PUnit) := by
  intro s s' h
  cases h

theorem modify (f : σ → σ) : NeverFails e (modify f : EStateM ε σ PUnit) := by
  intro s s' h
  cases h

theorem throw {e' : ε} (ne : e' ≠ e) : NeverFails e (MonadExcept.throw e' : EStateM ε σ α) := by
  intro s s' h
  cases h
  exact ne rfl

theorem liftExcept {e : StoreError} {x : Except StoreError α} (ne : x ≠ .error e) :
    NeverFails e (Log.liftExcept x : EStateM StoreError σ α) := by
  unfold Log.liftExcept
  split
  · exact .pure _
  · exact .throw fun same => ne (same ▸ rfl)

end NeverFails

theorem except_bind_ne {ε α β : Type} {e : ε} {x : Except ε α} {f : α → Except ε β}
    (hx : x ≠ .error e) (hf : ∀ a, f a ≠ .error e) : (x >>= f) ≠ .error e := by
  cases x with
  | error err => simpa [Bind.bind, Except.bind] using hx
  | ok a => exact hf a

theorem mapError_ne {ε α : Type} {f : ε → StoreError} (hf : ∀ e, f e ≠ .invalidIdentity)
    (x : Except ε α) : x.mapError f ≠ .error .invalidIdentity := by
  cases x with
  | error e => simpa [Except.mapError] using hf e
  | ok a => simp [Except.mapError]

-----------------------------------------------------------------------------------------
-- Table operations fail only for capacity
-----------------------------------------------------------------------------------------

namespace Table.OpenTable

variable {κ : Type} [TableKey κ]

theorem place_ne (slots : Array (Slot κ)) (key : κ) (value : Int64) :
    place slots key value ≠ .error .invalidIdentity := by
  unfold place
  dsimp only
  split <;> simp

theorem foldlM_place_ne (entries : List (κ × Int64)) (slots : Array (Slot κ)) :
    entries.foldlM (fun s e => place s e.1 e.2) slots ≠ .error .invalidIdentity := by
  induction entries generalizing slots with
  | nil => simp [Pure.pure, Except.pure]
  | cons entry rest ih =>
      rw [List.foldlM_cons]
      exact except_bind_ne (place_ne _ _ _) fun _ => ih _

omit [TableKey κ] in
theorem allocate_ne (cap : Nat) : (allocate cap : Except StoreError (Array (Slot κ))) ≠ .error .invalidIdentity := by
  unfold allocate
  split
  · simp
  · split <;> simp

theorem rehash_ne (t : OpenTable κ) (cap : Nat) : t.rehash cap ≠ .error .invalidIdentity := by
  unfold rehash
  dsimp only
  refine except_bind_ne (allocate_ne cap) fun fresh => ?_
  split
  · simp [throw, throwThe, MonadExceptOf.throw, Bind.bind, Except.bind]
  · exact except_bind_ne (foldlM_place_ne _ _) fun _ => by simp [Pure.pure, Except.pure]

theorem storeKey_ne (t : OpenTable κ) (key : κ) : t.storeKey key ≠ .error .invalidIdentity := by
  unfold storeKey
  dsimp only
  split_ifs <;> simp

theorem settle_ne (t : OpenTable κ) : t.settle ≠ .error .invalidIdentity := by
  unfold settle
  split
  · exact except_bind_ne (mapError_ne (by simp) _) fun target => rehash_ne t target
  · split
    · exact rehash_ne t t.capacity
    · simp [Pure.pure, Except.pure]

theorem occupy_ne (t t' : OpenTable κ) (i : Nat) (key : κ) (value : Int64) :
    t.occupy i key value ≠ .error .invalidIdentity t' := by
  unfold occupy
  dsimp only
  split
  · rename_i e stored
    simp only [ne_eq, EStateM.Result.error.injEq, not_and]
    intro same _
    exact storeKey_ne t key (same ▸ stored)
  · split
    · simp
    · rename_i e settled
      simp only [ne_eq, EStateM.Result.error.injEq, not_and]
      intro same _
      exact settle_ne _ (same ▸ settled)

variable [DecidableEq κ]

theorem probe_ne (t : OpenTable κ) (key : κ) : t.probe key ≠ .error .invalidIdentity := by
  unfold probe
  dsimp only
  split <;> simp

theorem insert_ne (t t' : OpenTable κ) (key : κ) (value : Int64) :
    t.insert key value ≠ .error .invalidIdentity t' := by
  unfold insert
  split
  · rename_i e probed
    simp only [ne_eq, EStateM.Result.error.injEq, not_and]
    intro same _
    exact probe_ne t key (same ▸ probed)
  · simp
  · split
    · simp
    · rename_i e t1 occupied
      simp only [ne_eq, EStateM.Result.error.injEq, not_and]
      intro same _
      exact occupy_ne t t1 _ key value (same ▸ occupied)

end Table.OpenTable

theorem Table.Cache.put_ne {κ : Type} [DecidableEq κ] [TableKey κ] (c c' : Table.Cache κ) (key : κ) (value : Int64) :
    c.put key value ≠ .error .invalidIdentity c' := by
  unfold Table.Cache.put
  split
  · simp
  · rename_i e t inserted
    simp only [ne_eq, EStateM.Result.error.injEq, not_and]
    intro same _
    exact Table.OpenTable.insert_ne c.table t key value (same ▸ inserted)

-----------------------------------------------------------------------------------------
-- Log and store steps
-----------------------------------------------------------------------------------------

theorem Record.encode_ne (r : Identity) : Record.encode r ≠ .error .invalidIdentity := by
  have checked : ∀ len what, Record.checkedU32 len what ≠ .error .invalidIdentity := by
    intro len what
    unfold Record.checkedU32
    split <;> simp
  unfold Record.encode
  exact except_bind_ne (checked _ _) fun _ => except_bind_ne (checked _ _) fun _ =>
    except_bind_ne (checked _ _) fun _ => by simp [Pure.pure, Except.pure]

namespace Log

theorem IdentityLog.recordRange_ne (l : IdentityLog) (i : Nat) :
    l.recordRange i ≠ .error .invalidIdentity := by
  unfold IdentityLog.recordRange
  split <;> simp

theorem IdentityLog.read_ne (l : IdentityLog) (d : Disk) (i : Nat) :
    l.read d i ≠ .error .invalidIdentity := by
  unfold IdentityLog.read
  exact except_bind_ne (l.recordRange_ne i) fun _ => mapError_ne (by simp) _

theorem liftIo_neverFails {σ α : Type} (x : Except Disk.IoError α) :
    NeverFails .invalidIdentity (liftIo x : EStateM StoreError σ α) := by
  unfold liftIo
  split
  · exact .pure _
  · exact .throw (by simp)

theorem writeData_neverFails (pos : Nat) (bytes : ByteArray) :
    NeverFails .invalidIdentity (writeData pos bytes) :=
  .bind .get fun _ => .bind (liftIo_neverFails _) fun _ => .set _

theorem writeIndex_neverFails (pos : Nat) (bytes : ByteArray) :
    NeverFails .invalidIdentity (writeIndex pos bytes) :=
  .bind .get fun _ => .bind (liftIo_neverFails _) fun _ => .set _

theorem runWrites_neverFails : ∀ ws : List LogWrite, NeverFails .invalidIdentity (runWrites ws)
  | [] => .pure _
  | .data pos bytes :: ws => .bind (writeData_neverFails pos bytes) fun _ => runWrites_neverFails ws
  | .index pos bytes :: ws =>
      .bind (writeIndex_neverFails pos bytes) fun _ => runWrites_neverFails ws

theorem IdentityLog.checkAppend_ne (l : IdentityLog) (bytes : ByteArray) :
    l.checkAppend bytes ≠ .error .invalidIdentity := by
  unfold IdentityLog.checkAppend
  split
  · simp
  · split <;> simp

theorem append_neverFails (bytes : ByteArray) : NeverFails .invalidIdentity (append bytes) := by
  unfold append sync
  dsimp only
  repeat' (first
    | exact runWrites_neverFails _
    | exact .liftExcept (IdentityLog.checkAppend_ne _ _)
    | refine .bind ?_ (fun _ => ?_)
    | exact .pure _
    | exact .get
    | exact .modify _)

theorem readAt_neverFails (i : Nat) : NeverFails .invalidIdentity (readAt i) :=
  .bind .get fun s => .liftExcept (s.log.read_ne s.disk i)

theorem tombstone_neverFails (i : Nat) : NeverFails .invalidIdentity (tombstone i) := by
  unfold tombstone sync
  dsimp only
  repeat' (first
    | exact writeData_neverFails _ _
    | exact liftIo_neverFails _
    | exact .liftExcept (IdentityLog.recordRange_ne _ _)
    | refine .bind ?_ (fun _ => ?_)
    | exact .pure _
    | exact .get
    | exact .modify _
    | split)

end Log

namespace Store.IndexedLog

theorem withLog_neverFails {α : Type} {m : Log.LogM α} (hm : NeverFails .invalidIdentity m) :
    NeverFails .invalidIdentity (withLog m) := by
  intro s s' h
  unfold withLog at h
  split at h
  · cases h
  · rename_i e t run
    simp only [EStateM.Result.error.injEq] at h
    exact hm _ _ (h.1 ▸ run)

theorem putInto_neverFails {κ : Type} [DecidableEq κ] [Table.TableKey κ]
    (cache : Table.CacheSet → Table.Cache κ) (update : Table.CacheSet → Table.Cache κ → Table.CacheSet) (key : κ) (value : Int64) :
    NeverFails .invalidIdentity (putInto cache update key value) := by
  intro s s' h
  unfold putInto at h
  split at h
  · cases h
  · rename_i e c put
    simp only [EStateM.Result.error.injEq] at h
    exact Table.Cache.put_ne _ c key value (h.1 ▸ put)

theorem indexKeys_neverFails (g : Int64) (name : Option String) (key : Option ByteArray) :
    NeverFails .invalidIdentity (indexKeys g name key) := by
  unfold indexKeys
  dsimp only
  repeat' (first
    | exact putInto_neverFails _ _ _ _
    | refine .bind ?_ (fun _ => ?_)
    | exact .pure _
    | split)

theorem writeRecord_neverFails (now : Int64) (name : Option String) (key : Option ByteArray) :
    NeverFails .invalidIdentity (writeRecord now name key) :=
  .bind .get fun _ => .bind (.liftExcept (Record.encode_ne _)) fun _ =>
    .bind (withLog_neverFails (Log.append_neverFails _)) fun _ =>
      .bind (putInto_neverFails _ _ _ _) fun _ => .pure _

theorem retire_neverFails (g : Int64) : NeverFails .invalidIdentity (retire g) := by
  unfold retire
  repeat' (first
    | exact withLog_neverFails (Log.readAt_neverFails _)
    | exact withLog_neverFails (Log.tombstone_neverFails _)
    | refine .bind ?_ (fun _ => ?_)
    | exact .pure _
    | exact .get
    | exact .modify _
    | split)

end Store.IndexedLog

end MetricRegistry
