import MiniDht.Node.Posting
import MiniDht.Node.Restore

/-!
# What a node leaves to the next process

The rows of the backup are those of contacts, so what holds of the contacts of a node holds of
the rows it leaves (`Beside.backing`). The process that starts on them pings every endpoint they
tell, and waits for the answers (`restored`).
-/

namespace MiniDht

open Lib

/-- The address is written in digits and dots. -/
def Endpoint.Dotted (ep : Endpoint) : Prop :=
  ∀ c ∈ ep.address.toList, c.isDigit = true ∨ c = '.'

instance (ep : Endpoint) : Decidable ep.Dotted :=
  decidable_of_iff (ep.address.toList.all fun c => c.isDigit || c == '.') (by simp [Endpoint.Dotted])

namespace Endpoint.Dotted

variable {ep : Endpoint}

theorem not_mem (dotted : ep.Dotted) {c : Char} (other : c.isDigit = false) (point : c ≠ '.') :
    c ∉ ep.address.toList := by
  intro member
  rcases dotted c member with digit | same
  · rw [other] at digit
    cases digit
  · exact point same

theorem plain (dotted : ep.Dotted) : ep.proto.Plain := by
  constructor
  · intro first
    exact dotted.not_mem (by decide) (by decide) (List.mem_of_head? first)
  · intro colon
    have spelled : (toString ep.port.toNat).toList = Nat.toDigits 10 ep.port.toNat := String.toList_ofList
    have digit : ':'.isDigit = true := by
      apply Nat.isDigit_of_mem_toDigits (b := 10) (by decide) (by decide)
      rwa [Endpoint.proto, spelled] at colon
    exact absurd digit (by decide)

theorem clean (dotted : ep.Dotted) : Clean (endpointToString ep.proto) := by
  have address : Clean ep.address :=
    ⟨dotted.not_mem (by decide) (by decide), dotted.not_mem (by decide) (by decide)⟩
  exact (address.append (by decide)).append (clean_nat _)

end Endpoint.Dotted

theorem clean_keyToString (b : BitVec keySize) : Clean (keyToString b) := by
  have digits := (canonical_keyToString b).2
  exact ⟨fun quote => absurd (digits _ quote) (by decide), fun nul => hexChars_ne_nul (digits _ nul) rfl⟩

theorem DbKeyValue.keeps_listValue {q : Sqlite Contacts KvRow} {I : Contacts → Prop} :
    Act.Keeps (fun c : Conn Contacts => I c.tables) (listValue q) := by
  have reads : selectValues.Reads := by simp [Stmt.reads_iff, selectValues]
  refine .bind (keeps_exec q _ reads fun n t t' rows holds run => ?_) fun rows => .pure _
  obtain ⟨rfl, -⟩ := Prod.mk.inj (Option.some.inj run)
  exact holds

namespace Node

/-- An invariant of the contact list and the backup alone, that goes beside one of those above. -/
structure Beside (w : World) (J : Node → Prop) (known : String → EndpointProto → Prop) : Prop where
  still : ∀ (s s' : Node), J s → s'.contactList = s.contactList → s'.dbBackup = s.dbBackup → J s'
  add : ∀ (s : Node) (order : EvalOrder) (pastEnd : UInt64) (now : Ptime) (k : String)
    (ep : EndpointProto) (b : Bucket), J s → known k ep →
    s.contactList.addContact order pastEnd now k ep = .ok b → J { s with contactList := b }
  drop : ∀ (s : Node) (pos : Nat), J s →
    J { s with contactList := { s.contactList with entries := s.contactList.entries.eraseIdx pos } }
  look : ∀ (s : Node) (k : String), J s →
    J { s with contactList := s.contactList.buildProximity k }
  reads : Act.Keeps J (onBackup (DbKeyValue.listValue w.backup))
  finds : ∀ (k : String) (ep : EndpointProto), known k ep →
    Act.Keeps J (onBackup (DbKeyValue.find w.backup k))
  removes : ∀ (k : String) (ep : EndpointProto), known k ep →
    Act.Keeps J (onBackup (DbKeyValue.remove w.backup k))
  files : ∀ (k : String) (ep : EndpointProto), known k ep →
    Act.Keeps J (onBackup (DbKeyValue.insert w.backup k (endpointToString ep)))

theorem Posts.beside {w : World} {I J : Node → Prop} {fit : MessageProto → Prop}
    {dialled : EndpointProto → Prop} {known : String → EndpointProto → Prop}
    (rule : Posts w I fit dialled known) (other : Beside w J known) :
    Posts w (fun s => I s ∧ J s) fit dialled known := by
  have both {x : NodeM Unit} (leaves : Leaves ledger x) : Act.Keeps J x := by
    intro s h
    obtain ⟨list, backup⟩ := Prod.mk.inj (leaves (ledger s) s rfl)
    exact other.still s _ h list backup
  have sends (c : Bucket × Conn Contacts) := blind_ledger.carries w c
  exact
    { still := fun s s' h core backup log => ⟨rule.still s s' h.1 core backup log,
        other.still s s' h.2 (congrArg (·.2.1) core) backup⟩
      search := fun s f h => ⟨rule.search s f h.1, other.still s _ h.2 rfl rfl⟩
      own := fun s m h => rule.own s m h.1
      post := fun s m h fits => ⟨rule.post s m h.1 fits,
        both (fun c => (sends c).sendMessage trivial) s h.2⟩
      dial := fun s m epp h sender ping dials => ⟨rule.dial s m epp h.1 sender ping dials,
        both (fun c => (sends c).sendMessageTo trivial epp) s h.2⟩
      add := fun s order pastEnd now k ep b h met added =>
        ⟨rule.add s order pastEnd now k ep b h.1 met added, other.add s order pastEnd now k ep b h.2 met added⟩
      drop := fun s pos h => ⟨rule.drop s pos h.1, other.drop s pos h.2⟩
      look := fun s k h => ⟨rule.look s k h.1, other.look s k h.2⟩
      listed := fun s h => rule.listed s h.1
      reads := fun s h => ⟨rule.reads s h.1, other.reads s h.2⟩
      finds := fun k ep met s h => ⟨rule.finds k ep met s h.1, other.finds k ep met s h.2⟩
      removes := fun k ep met s h => ⟨rule.removes k ep met s h.1, other.removes k ep met s h.2⟩
      files := fun k ep met s h => ⟨rule.files k ep met s h.1, other.files k ep met s h.2⟩ }

/-- What holds of the rows of a backup, of which some are removed, and to which those of `known`
contacts are added. -/
theorem Beside.backing {w : World} {known : String → EndpointProto → Prop} {J : Contacts → Prop}
    (clean : ∀ k ep, known k ep → Clean k ∧ Clean (endpointToString ep))
    (removed : ∀ t k, J t → J (t.filter fun r => r.1 ≠ k))
    (filed : ∀ t k ep, known k ep → J t → J (t ++ [(k, endpointToString ep)])) :
    Beside w (fun s => J s.dbBackup.tables) known := by
  have zoom {α : Type} {x : DbM Contacts α}
      (keeps : Act.Keeps (fun c : Conn Contacts => J c.tables) x) :
      Act.Keeps (fun s : Node => J s.dbBackup.tables) (onBackup x) := by
    intro s h
    rw [onBackup, Act.exec_zoom]
    exact keeps s.dbBackup h
  exact
    { still := fun s s' h _ backup => backup ▸ h
      add := fun s _ _ _ _ _ _ h _ _ => h
      drop := fun s _ h => h
      look := fun s _ h => h
      reads := zoom DbKeyValue.keeps_listValue
      finds := fun k ep met => zoom (DbKeyValue.keeps_find (clean k ep met).1)
      removes := fun k ep met => zoom (DbKeyValue.keeps_remove (clean k ep met).1 fun t => removed t k)
      files := fun k ep met => zoom (DbKeyValue.keeps_insert (clean k ep met) fun t => filed t k ep met) }

/-! ## The next start -/

/-- A ping of the node went to the endpoint, and the node knows when it was sent. -/
def Awaits (w : World) (s : Node) (uep : Endpoint) : Prop :=
  ∃ t n, .delivered { type := .sendPing, fromId := s.id, token := t } uep ∈ s.log ∧
    s.mapPingTtl t = some (w.clock n) ∧ n ≤ s.ticks

variable {w : World} {s : Node} {uep : Endpoint}

/-- Another ping, of the same token perhaps. -/
theorem Awaits.pinged (awaits : Awaits w s uep) (draws : Nat) (t : Token) (es : List Event) :
    Awaits w ((Node.pinged w { s with draws := draws } t).logged es) uep := by
  obtain ⟨t', n, sent, noted, earlier⟩ := awaits
  by_cases same : t' = t
  · exact ⟨t', s.ticks, List.mem_append_left _ sent, by simp [Node.pinged, same], Nat.le_succ _⟩
  · exact ⟨t', n, List.mem_append_left _ sent, by simp [Node.pinged, same, noted], earlier.trans (Nat.le_succ _)⟩

/-- The loop over the backup pings what it can resolve. -/
theorem exec_pingBackup_awaits {eps : List EndpointProto} (fit : ∀ ep ∈ eps, ep.Named ∧ ep.Plain) :
    ∃ s', Act.exec (pingBackup w (eps.map endpointToString)) s = (.ok (), s') ∧
      (∀ uep, Awaits w s uep → Awaits w s' uep) ∧
      ((∀ t, w.byteSize { type := .sendPing, fromId := s.id, token := t } ≤ maxBodyLength) →
        ∀ ep ∈ eps, ∀ uep, w.resolve ep = some uep → Awaits w s' uep) := by
  induction eps generalizing s with
  | nil => exact ⟨s, rfl, fun _ awaits => awaits, fun _ ep member => by cases member⟩
  | cons ep eps ih =>
    obtain ⟨⟨named, plain⟩, later⟩ := List.forall_mem_cons.mp fit
    have cut : Act.exec (Act.ofExcept (stringToEndpointPair (endpointToString ep))) s =
        (.ok (ep.address, ep.port), s) := by
      rw [stringToEndpointPair_endpointToString plain, Act.exec_ofExcept]
    let m : MessageProto := { type := .sendPing, fromId := s.id, token := tokenAt w s.draws }
    let s₁ := (Node.pinged w { s with draws := s.draws + tokenSize } m.token).logged (handOver w m ep)
    have ping : Act.exec (Act.catchStd (sendPingTo w ep m.token))
        { s with draws := s.draws + tokenSize } = (.ok (), s₁) := by
      rw [Act.exec_catchStd, exec_sendPingTo named]
    obtain ⟨s', run, kept, rest⟩ := @ih s₁ later
    refine ⟨s', ?_, fun uep awaits => kept uep (awaits.pinged _ _ _), ?_⟩
    · rw [List.map_cons, pingBackup, Act.exec_bind_ok cut]
      simp only []
      rw [Act.exec_bind_ok (exec_randomToken w s), Act.exec_bind_ok ping, run]
    · refine fun fits => List.forall_mem_cons.mpr ⟨fun uep finds => ?_, rest fits⟩
      refine kept uep ⟨m.token, s.ticks, List.mem_append_right _ ?_, ?_, Nat.le_succ _⟩
      · have whole : ¬ maxBodyLength < w.byteSize m := not_lt.mpr (fits m.token)
        simp only [handOver, finds, if_neg whole]
        exact List.mem_cons_of_mem _ (List.mem_singleton_self _)
      · exact Function.update_self ..

/-- A process that starts on a backup comes up with it, having pinged every endpoint in it. -/
theorem restored (sound : w.backup.Sound) {t : Contacts} {eps : List EndpointProto}
    (saved : Saved t eps) (plain : ∀ ep ∈ eps, ep.Plain) (key : BitVec keySize) (maxRecords : Nat)
    (storage : Tables) :
    ∃ s, Act.exec (restoreFromBackup w) (initial key maxRecords storage t) = (.ok (), s) ∧
      s.dbBackup.tables = t ∧
      ((∀ t, w.byteSize { type := .sendPing, fromId := keyToString key, token := t } ≤ maxBodyLength) →
        ∀ ep ∈ eps, ∀ uep, w.resolve ep = some uep → Awaits w s uep) := by
  obtain ⟨l, perm, run⟩ := DbKeyValue.exec_listValue sound t
  obtain ⟨order, rfl, same⟩ : Relation.Comp (· = List.map endpointToString ·) List.Perm l eps := by
    rw [List.eq_map_comp_perm]
    exact perm.trans (.of_eq saved.values)
  have listed : Act.exec (onBackup (DbKeyValue.listValue w.backup))
      (initial key maxRecords storage t) =
        (.ok (order.map endpointToString),
          { initial key maxRecords storage t with dbBackup := ⟨t, 1⟩ }) :=
    exec_onBackup run
  obtain ⟨s, pings, -, awaits⟩ := @exec_pingBackup_awaits w
    { initial key maxRecords storage t with dbBackup := ⟨t, 1⟩ } order
    (fun ep member => ⟨saved.named ep (same.subset member), plain ep (same.subset member)⟩)
  have kept := (blind_ledger.carries w (.new (keyToString key), ⟨t, 1⟩)).pingBackup
    (order.map endpointToString) { initial key maxRecords storage t with dbBackup := ⟨t, 1⟩ } rfl
  rw [pings] at kept
  refine ⟨s, ?_, congrArg (Conn.tables ∘ Prod.snd) kept, fun fits ep member => awaits fits ep (same.symm.subset member)⟩
  rw [restoreFromBackup, Act.exec_bind_ok listed, pings]

end Node

end MiniDht
