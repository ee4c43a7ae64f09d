import MiniDht.EndpointText
import MiniDht.Node.Pings
import MiniDht.Node.Refresh

/-!
# The backup and the next start

`periodic` writes the endpoints of the contacts into the backup, and the constructor of a
later process reads them again and pings them. A text joins address and port by a colon and
is cut at the last one, so an address may hold colons of its own; only a leading bracket is
taken for something else.
-/

namespace MiniDht

open Lib

/-! ## What is in the backup -/

/-- The values of the rows are the texts of these endpoints, which are fit to be pinged. -/
structure Saved (t : Contacts) (eps : List EndpointProto) : Prop where
  values : t.map Prod.snd = eps.map endpointToString
  named : ∀ ep ∈ eps, ep.Named

/-- Rows that each have the text of a `known` endpoint. -/
def RowsOf (known : EndpointProto → Prop) (t : Contacts) : Prop :=
  ∀ r ∈ t, ∃ ep, known ep ∧ r.2 = endpointToString ep

theorem RowsOf.exists_values {known : EndpointProto → Prop} {t : Contacts} (rows : RowsOf known t) :
    ∃ eps : List EndpointProto, t.map Prod.snd = eps.map endpointToString ∧ ∀ ep ∈ eps, known ep := by
  induction t with
  | nil => exact ⟨[], rfl, by simp⟩
  | cons r t ih =>
    obtain ⟨⟨ep, first, value⟩, later⟩ := List.forall_mem_cons.mp rows
    obtain ⟨eps, values, all⟩ := ih later
    exact ⟨ep :: eps, by rw [List.map_cons, List.map_cons, value, values],
      List.forall_mem_cons.mpr ⟨first, all⟩⟩

theorem Saved.row {t : Contacts} {eps : List EndpointProto} (saved : Saved t eps)
    {r : String × String} (member : r ∈ t) : ∃ ep ∈ eps, r.2 = endpointToString ep := by
  have value : r.2 ∈ eps.map endpointToString :=
    saved.values ▸ List.mem_map_of_mem member
  obtain ⟨ep, there, same⟩ := List.mem_map.mp value
  exact ⟨ep, there, same.symm⟩

namespace DbKeyValue

variable {q : Sqlite Contacts KvRow}

section Keeps

variable {I : Contacts → Prop} {key endpoint : String}

theorem keeps_find (clean : Clean key) :
    Act.Keeps (fun c : Conn Contacts => I c.tables) (find q key) := by
  have reads : (selectValue key).Reads := by simpa [Stmt.reads_iff, selectValue] using clean
  refine .bind (keeps_exec q _ reads fun n t t' rows holds run => ?_) fun rows => ?_
  · obtain ⟨rfl, -⟩ := Prod.mk.inj (Option.some.inj run)
    exact holds
  · split <;> exact .pure _

theorem keeps_remove (clean : Clean key)
    (step : ∀ t, I t → I (t.filter fun r => r.1 ≠ key)) :
    Act.Keeps (fun c : Conn Contacts => I c.tables) (remove q key) := by
  have reads : (deleteContact key).Reads := by simpa [Stmt.reads_iff, deleteContact] using clean
  refine .bind (keeps_exec q _ reads fun n t t' rows holds run => ?_) fun rows => .pure _
  obtain ⟨rfl, -⟩ := Prod.mk.inj (Option.some.inj run)
  exact step t holds

theorem keeps_insert (clean : Clean key ∧ Clean endpoint)
    (step : ∀ t, I t → I (t ++ [(key, endpoint)])) :
    Act.Keeps (fun c : Conn Contacts => I c.tables) (insert q key endpoint) := by
  have reads : (insertContact key endpoint).Reads := by
    simpa [Stmt.reads_iff, insertContact] using clean
  refine .bind (keeps_exec q _ reads fun n t t' rows holds run => ?_) fun rows => .pure _
  obtain ⟨-, added⟩ := Option.ite_none_left_eq_some.mp run
  obtain ⟨rfl, -⟩ := Prod.mk.inj (Option.some.inj added)
  exact step t holds

end Keeps

/-- `list_value` hands out the values, in the order the engine returns the rows in. -/
theorem exec_listValue (sound : q.Sound) (t : Contacts) :
    ∃ l, l.Perm (t.map Prod.snd) ∧
      Act.exec (listValue q) ⟨t, 0⟩ = (.ok l, ⟨t, 1⟩) := by
  have reads : selectValues.Reads := by simp [Stmt.reads_iff, selectValues]
  have run := exec_sound (f := ("SQL error in SELECT value : " ++ ·)) sound reads
    (c := ⟨t, 0⟩) (t := t) rfl
  have perm := q.arrange_perm 0 (t.map fun c => { value := some c.2 })
  refine ⟨_, (perm.map fun row => row.value.getD "").trans (.of_eq ?_), ?_⟩
  · rw [List.map_map]
    rfl
  · rw [listValue, Act.exec_bind_ok run]
    rfl

end DbKeyValue

namespace Node

variable {w : World} {s : Node}

/-! ## What the pass over the contacts writes -/

/-- The contacts the pass may come to are `known` and read as meant in a statement, and the
backup tells `known` endpoints only. -/
structure Backing (known : EndpointProto → Prop) (s : Node) : Prop where
  listed : ∀ e ∈ s.contactList.entries, e.1 ≠ keySize →
    known e.2.ep ∧ Clean e.2.key ∧ Clean (endpointToString e.2.ep)
  rows : RowsOf known s.dbBackup.tables

/-- The contact list and the backup of a node. -/
def ledger (s : Node) : Bucket × Conn Contacts := (s.contactList, s.dbBackup)

theorem blind_ledger : Blind ledger := fun _ _ _ _ _ _ => rfl

section Backing

variable {known : EndpointProto → Prop} {c : ContactProto}

theorem Leaves.backing {α : Type} {x : NodeM α} (leaves : Leaves ledger x) :
    Act.Keeps (Backing known) x := by
  intro s backing
  obtain ⟨list, rows⟩ := Prod.mk.inj (leaves (ledger s) s rfl)
  exact ⟨list ▸ backing.listed, rows ▸ backing.rows⟩

/-- A call on the backup after which it tells no other endpoints. -/
theorem Backing.onBackup {α : Type} {x : DbM Contacts α}
    (keeps : Act.Keeps (fun c : Conn Contacts => RowsOf known c.tables) x) :
    Act.Keeps (Backing known) (onBackup x) := by
  intro s backing
  rw [Node.onBackup, Act.exec_zoom]
  exact ⟨backing.listed, keeps s.dbBackup backing.rows⟩

theorem Backing.find (clean : Clean c.key) :
    Act.Keeps (Backing known) (Node.onBackup (DbKeyValue.find w.backup c.key)) :=
  .onBackup (DbKeyValue.keeps_find clean)

theorem Backing.remove (clean : Clean c.key) :
    Act.Keeps (Backing known) (Node.onBackup (DbKeyValue.remove w.backup c.key)) :=
  .onBackup (DbKeyValue.keeps_remove clean fun _ rows r member =>
    rows r (List.mem_filter.mp member).1)

theorem Backing.insert (clean : Clean c.key ∧ Clean (endpointToString c.ep)) (fits : known c.ep) :
    Act.Keeps (Backing known)
      (Node.onBackup (DbKeyValue.insert w.backup c.key (endpointToString c.ep))) := by
  refine .onBackup (DbKeyValue.keeps_insert clean fun t rows r member => ?_)
  rcases List.mem_append.mp member with old | new
  · exact rows r old
  · rw [List.mem_singleton.mp new]
    exact ⟨c.ep, fits, rfl⟩

theorem Backing.erase (backing : Backing known s) (pos : Nat) :
    Backing known { s with
      contactList := { s.contactList with entries := s.contactList.entries.eraseIdx pos } } where
  listed e member := backing.listed e (List.mem_of_mem_eraseIdx member)
  rows := backing.rows

/-- Wherever the pass comes to and however it ends, it files the texts of contacts only. -/
theorem Backing.refreshFrom (fuel pos : Nat) :
    Act.Keeps (Backing known) (refreshFrom w fuel pos) := by
  induction fuel generalizing pos with
  | zero => exact .throw _
  | succ fuel ih =>
    refine .get_bind fun s backing => ?_
    cases here : s.contactList.entries[pos]? with
    | none => exact backing
    | some e =>
      obtain ⟨index, c⟩ := e
      by_cases near : index = keySize
      · simp only [if_pos near]
        exact ih _ s backing
      obtain ⟨fits, clean⟩ := backing.listed _ (List.mem_of_getElem? here) near
      simp only [if_neg near]
      refine Act.Keeps.bind (Leaves.updateTime blind_ledger).backing (fun now => ?_) s backing
      refine .ite ?_ ?_
      · refine .bind (Leaves.randomToken blind_ledger).backing fun _ =>
          .bind (Leaves.sendPing blind_ledger _ _).backing fun _ =>
          .bind (Backing.remove clean.1) fun _ =>
          .bind (.modify fun s backing => backing.erase pos) fun _ => .bind .get fun _ => ?_
        exact .ite (.bind (.throw _) fun _ => ih _) (ih _)
      · refine .bind (Backing.find clean.1) fun _ => .ite ?_ (ih _)
        have write : Act.Keeps (Backing known)
            (Node.onBackup (DbKeyValue.insert w.backup c.key (endpointToString c.ep))) :=
          Backing.insert clean fits
        exact .ite (.bind (Backing.remove clean.1) fun _ => .bind write fun _ => ih _)
          (.bind write fun _ => ih _)

theorem Backing.refreshContacts : Act.Keeps (Backing known) (refreshContacts w) :=
  .rethrowAs <| .bind .get fun _ => Backing.refreshFrom _ _

end Backing

/-- After the pass the backup holds endpoints it held before, and endpoints of contacts. -/
theorem refreshContacts_saves (reach : Reachable w s)
    (clean : ∀ e ∈ s.contactList.entries, e.1 ≠ keySize →
      Clean e.2.key ∧ Clean (endpointToString e.2.ep))
    {old : List EndpointProto} (saved : Saved s.dbBackup.tables old) :
    ∃ eps, Saved (Act.exec (refreshContacts w) s).2.dbBackup.tables eps ∧
      ∀ ep ∈ eps, ep ∈ old ∨ ep ∈ s.contactList.entries.map (·.2.ep) := by
  let known : EndpointProto → Prop := fun ep =>
    ep.Named ∧ (ep ∈ old ∨ ep ∈ s.contactList.entries.map (·.2.ep))
  have backing : Backing known s := by
    constructor
    · intro e member far
      exact ⟨⟨reach.table.filed.named e member, .inr (List.mem_map_of_mem member)⟩,
        clean e member far⟩
    · intro r member
      obtain ⟨ep, there, value⟩ := saved.row member
      exact ⟨ep, ⟨saved.named ep there, .inl there⟩, value⟩
  obtain ⟨eps, values, all⟩ := (Backing.refreshContacts (w := w) s backing).rows.exists_values
  exact ⟨eps, ⟨values, fun ep member => (all ep member).1⟩, fun ep member => (all ep member).2⟩

/-! ## What the next start pings -/

/-- The endpoints pings were sent to. -/
def pingedEndpoints (es : List Event) : List EndpointProto :=
  es.filterMap fun
    | .handed m epp => if m.type = .sendPing then some epp else none
    | _ => none

theorem pingedEndpoints_append (es es' : List Event) :
    pingedEndpoints (es ++ es') = pingedEndpoints es ++ pingedEndpoints es' :=
  List.filterMap_append

theorem pingedEndpoints_handOver {m : MessageProto} (ping : m.type = .sendPing)
    (epp : EndpointProto) : pingedEndpoints (handOver w m epp) = [epp] := by
  unfold handOver
  cases w.resolve epp with
  | none => simp [pingedEndpoints, ping]
  | some uep =>
    simp only []
    split <;> simp [pingedEndpoints, ping]

/-- The loop pings one endpoint after the other. -/
theorem exec_pingBackup {eps : List EndpointProto} (fit : ∀ ep ∈ eps, ep.Named ∧ ep.Plain) :
    ∃ s', Act.exec (pingBackup w (eps.map endpointToString)) s = (.ok (), s') ∧
      pingedEndpoints s'.log = pingedEndpoints s.log ++ eps := by
  induction eps generalizing s with
  | nil => exact ⟨s, rfl, by simp⟩
  | cons ep eps ih =>
    obtain ⟨⟨named, plain⟩, later⟩ := List.forall_mem_cons.mp fit
    have cut : Act.exec (Act.ofExcept (stringToEndpointPair (endpointToString ep))) s =
        (.ok (ep.address, ep.port), s) := by
      rw [stringToEndpointPair_endpointToString plain, Act.exec_ofExcept]
    let m : MessageProto := { type := .sendPing, fromId := s.id, token := tokenAt w s.draws }
    let s₁ := (pinged w { s with draws := s.draws + tokenSize } m.token).logged (handOver w m ep)
    have ping : Act.exec (Act.catchStd (sendPingTo w ep m.token))
        { s with draws := s.draws + tokenSize } = (.ok (), s₁) := by
      rw [Act.exec_catchStd, exec_sendPingTo named]
    obtain ⟨s', run, rest⟩ := @ih s₁ later
    refine ⟨s', ?_, ?_⟩
    · rw [List.map_cons, pingBackup, Act.exec_bind_ok cut]
      simp only []
      rw [Act.exec_bind_ok (exec_randomToken w s), Act.exec_bind_ok ping, run]
    · have log : s₁.log = s.log ++ handOver w m ep := rfl
      rw [rest, log, pingedEndpoints_append, pingedEndpoints_handOver rfl, List.append_assoc,
        List.singleton_append]

/-- A process that starts on a backup pings the endpoints in it, and no others. -/
def Restores (w : World) (t : Contacts) (eps : List EndpointProto) : Prop :=
  ∀ (key : BitVec keySize) (maxRecords : Nat) (storage : Tables),
    ∃ s, Act.exec (restoreFromBackup w) (initial key maxRecords storage t) = (.ok (), s) ∧
      (pingedEndpoints s.log).Perm eps

theorem restores (sound : w.backup.Sound) {t : Contacts} {eps : List EndpointProto}
    (saved : Saved t eps) (plain : ∀ ep ∈ eps, ep.Plain) : Restores w t eps := by
  intro key maxRecords storage
  obtain ⟨l, perm, run⟩ := DbKeyValue.exec_listValue sound t
  -- the rows come back in some order
  obtain ⟨order, rfl, same⟩ : Relation.Comp (· = List.map endpointToString ·) List.Perm l eps := by
    rw [List.eq_map_comp_perm]
    exact perm.trans (.of_eq saved.values)
  have listed : Act.exec (onBackup (DbKeyValue.listValue w.backup))
      (initial key maxRecords storage t) =
        (.ok (order.map endpointToString),
          { initial key maxRecords storage t with dbBackup := ⟨t, 1⟩ }) :=
    exec_onBackup run
  obtain ⟨s, pings, log⟩ := @exec_pingBackup w
    { initial key maxRecords storage t with dbBackup := ⟨t, 1⟩ } order fun ep member =>
      ⟨saved.named ep (same.subset member), plain ep (same.subset member)⟩
  refine ⟨s, ?_, ?_⟩
  · rw [restoreFromBackup, Act.exec_bind_ok listed, pings]
  · rw [log]
    exact same

/-- **The backup.** The text of an endpoint is cut where it was joined, so what the pass over
the contacts files, the next start pings. -/
theorem backup_restored (sound : w.backup.Sound) :
    (∀ ep : EndpointProto, ep.Plain →
      stringToEndpointPair (endpointToString ep) = .ok (ep.address, ep.port)) ∧
    (∀ s old, Reachable w s → (∀ e ∈ s.contactList.entries, e.1 ≠ keySize →
        Clean e.2.key ∧ Clean (endpointToString e.2.ep)) → Saved s.dbBackup.tables old →
      ∃ eps, Saved (Act.exec (refreshContacts w) s).2.dbBackup.tables eps ∧
        ∀ ep ∈ eps, ep ∈ old ∨ ep ∈ s.contactList.entries.map (·.2.ep)) ∧
    ∀ t eps, Saved t eps → (∀ ep ∈ eps, ep.Plain) → Restores w t eps :=
  ⟨fun _ plain => stringToEndpointPair_endpointToString plain,
    fun _ _ reach clean saved => refreshContacts_saves reach clean saved,
    fun _ _ saved plain => restores sound saved plain⟩

/-- The theorem at an address full of colons. -/
theorem backup_restored_colons :
    let ep : EndpointProto := { address := "fe80::1", port := "4040" }
    stringToEndpointPair "fe80::1:4040" = .ok ("fe80::1", "4040") ∧
      Restores .pinged [("0a", "fe80::1:4040")] [ep] := by
  intro ep
  obtain ⟨cut, -, restore⟩ := @backup_restored .pinged Sqlite.inOrder_sound
  refine ⟨cut ep (by decide), restore _ _ ⟨rfl, ?_⟩ ?_⟩
  · rintro _ (_ | ⟨_, ⟨⟩⟩)
    decide
  · rintro _ (_ | ⟨_, ⟨⟩⟩)
    decide

end Node

end MiniDht
