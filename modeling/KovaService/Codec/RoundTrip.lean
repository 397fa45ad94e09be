import KovaService.Codec.Size

/-!
Both codecs round trip: what an encoder writes for a valid state, its decoder reads back.
-/

namespace KovaService.Codec

open Lib Lib.Json Api Ledger

variable {v : Value} {t : Fields}

theorem record_lookup (hn : (t.map Prod.fst).Nodup) :
    ((present t).lookup · : String → Option Value) = fun k => (t.lookup k).join :=
  funext fun k => lookup_present hn k

theorem reservationFields_nodup (e : ActiveReservation) :
    ((reservationFields e).map Prod.fst).Nodup := by
  simp [reservationFields]

theorem stateFields_nodup (s : ReservationState) : ((stateFields s).map Prod.fst).Nodup := by
  simp [stateFields]

theorem intentFields_nodup (e : Intent) : ((intentFields e).map Prod.fst).Nodup := by
  simp [intentFields]

theorem queueFields_nodup (s : QueueState) : ((queueFields s).map Prod.fst).Nodup := by
  simp [queueFields]

variable {e : ActiveReservation}

theorem readReservation_fields (hl : -2 ^ 63 ≤ e.slots) (hu : e.slots < 2 ^ 63) :
    readReservation (fun k => ((reservationFields e).lookup k).join) = some e := by
  refine read_bind (readString_str _) (read_bind (readString_str _) ?_)
  refine read_bind (readInt_int hl hu) (read_bind (readString_nonEmpty _) ?_)
  refine read_bind (readUInt64_nonZero _) (read_bind (readString_nonEmpty _) ?_)
  refine read_bind (readString_nonEmpty _) (read_bind (readString_nonEmpty _) ?_)
  refine read_bind (readBool_nonFalse _) (read_bind (readString_nonEmpty _) ?_)
  refine read_bind (readString_nonEmpty _) (read_bind (readString_nonEmpty _) ?_)
  refine read_bind (readString_nonEmpty _) (read_bind (readBool_nonFalse _) ?_)
  exact read_bind (readBool_nonFalse _) (read_bind (readStrings_nonNil _) rfl)

theorem unmarshalReservation_marshal (hl : -2 ^ 63 ≤ e.slots) (hu : e.slots < 2 ^ 63) :
    unmarshalReservation (marshalReservation e) = some e := by
  simp only [unmarshalReservation, marshalReservation, Value.record, members, Option.bind_some]
  rw [record_lookup (reservationFields_nodup e)]
  exact readReservation_fields hl hu

theorem unmarshalIntent_marshal {e : Intent} (hl : -2 ^ 63 ≤ e.createdAtUnix)
    (hu : e.createdAtUnix < 2 ^ 63) : unmarshalIntent (marshalIntent e) = some e := by
  have hkind : (readString (nonEmpty (CleanupKind.text e.cleanupKind))).bind readKind =
      some e.cleanupKind := by
    rw [readString_nonEmpty]
    cases e.cleanupKind <;> decide
  simp only [unmarshalIntent, marshalIntent, Value.record, members, Option.bind_some]
  rw [record_lookup (intentFields_nodup e)]
  refine read_bind (readString_str _) (read_bind (readString_str _) ?_)
  refine read_bind (readString_str _) (read_bind (readInt_int hl hu) ?_)
  refine read_bind (readString_nonEmpty _) (read_bind (readString_nonEmpty _) ?_)
  exact read_bind hkind rfl

variable {s : ReservationState}

theorem unmarshalReservations_marshal (h : s.validate = .ok ()) :
    unmarshalReservations (marshalReservations s) = .ok s := by
  have hv := ReservationState.validate_ok h
  have hn := stateFields_nodup s
  have hcap := capacity_bounds hv.capacity
  have hversion := hv.version
  have hentry : ∀ k e, s.active.lookup k = some e →
      unmarshalReservation (marshalReservation e) = some e := by
    intro k e he
    have hw := hv.entry k e he
    simp only [ActiveReservation.wellFormed, Bool.and_eq_true, decide_eq_true_eq] at hw
    exact unmarshalReservation_marshal (by omega) (by omega)
  have hread : readReservations (fun k => ((stateFields s).lookup k).join) = some s := by
    refine read_bind (readInt_int (by omega) (by omega)) (read_bind (readUInt64_int _) ?_)
    refine read_bind (readInt_int (by omega) (by omega)) ?_
    refine read_bind (readInt_int (by omega) (by omega)) ?_
    refine read_bind (readInt_int (by omega) (by omega)) (read_bind (readString_nonEmpty _) ?_)
    exact read_bind (readMap_mapMembers s.active hentry) rfl
  simp only [unmarshalReservations, marshalReservations, Value.record, members]
  rw [record_lookup hn, hread, lookup_present hn]
  rfl

theorem unmarshalQueue_marshal {s : QueueState} (h : s.validate = .ok ())
    (ht : ∀ id e, s.intents.lookup id = some e → e.createdAtUnix < 2 ^ 63) :
    unmarshalQueue (marshalQueue s) = .ok s := by
  have hv := QueueState.validate_ok h
  have hn := queueFields_nodup s
  have hlim := queueLimits_bounds hv.limits
  have hversion := hv.version
  have hentry : ∀ id e, s.intents.lookup id = some e →
      unmarshalIntent (marshalIntent e) = some e := by
    intro id e he
    have hw := hv.intent id e he
    simp only [Intent.wellFormed, Bool.and_eq_true, decide_eq_true_eq] at hw
    exact unmarshalIntent_marshal (by omega) (ht id e he)
  have hread : readQueue (fun k => ((queueFields s).lookup k).join) = some s := by
    refine read_bind (readInt_int (by omega) (by omega)) ?_
    refine read_bind (readInt_int (by omega) (by omega)) ?_
    refine read_bind (readInt_int (by omega) (by omega)) ?_
    exact read_bind (readMap_mapMembers s.intents hentry) rfl
  simp only [unmarshalQueue, marshalQueue, Value.record, members]
  rw [record_lookup hn, hread, lookup_present hn]
  rfl

variable {allowed : Allowed} {path : List String} {depth : Nat}

theorem checkValue_record (hd : depth ≤ 5) (hn : (t.map Prod.fst).Nodup)
    (hkeys : (t.map Prod.fst).all (allowed path))
    (hvalues : ∀ k v, (k, some v) ∈ t → checkValue allowed (path ++ [k]) (depth + 1) v = .ok ()) :
    checkValue allowed path depth (.record t) = .ok () := by
  have hsub := keys_present t
  rw [Value.record, checkValue, if_neg (by omega)]
  refine checkMembers_ok (fun k hk => ⟨?_, by simp⟩) (hsub.nodup hn) fun k v hkv =>
    hvalues k v (mem_present hkv)
  exact List.all_eq_true.mp hkeys k (hsub.subset hk)

/-- Strings, numbers, booleans and lists of strings pass at any level a ledger has. -/
def Flat : Value → Prop
  | .bool _ | .num _ | .str _ => True
  | .arr vs => ∃ l : List String, vs = l.map .str
  | _ => False

theorem checkValue_flat (hd : depth ≤ 4) (hf : Flat v) :
    checkValue allowed path depth v = .ok () := by
  cases v with
  | bool | num | str => rw [checkValue, if_neg (by omega)]
  | arr vs =>
    obtain ⟨l, rfl⟩ := hf
    rw [checkValue, if_neg (by omega)]
    induction l with
    | nil => rfl
    | cons s l ih =>
      rw [List.map_cons, checkElements, checkValue, if_neg (by omega)]
      exact ih
  | null | obj => exact hf.elim

theorem flat_nonEmpty {s : String} (h : some v = nonEmpty s) : Flat v := by
  unfold nonEmpty at h
  split at h
  · cases h
  · cases h
    trivial

theorem flat_nonZero {n : Nat} (h : some v = nonZero n) : Flat v := by
  unfold nonZero at h
  split at h
  · cases h
  · cases h
    trivial

theorem flat_nonFalse {b : Bool} (h : some v = nonFalse b) : Flat v := by
  unfold nonFalse at h
  split at h
  · cases h
    trivial
  · cases h

theorem flat_nonNil {l : List String} (h : some v = nonNil l) : Flat v := by
  unfold nonNil at h
  split at h
  · cases h
  · cases h
    exact ⟨l, rfl⟩

theorem flat_some {w : Value} (h : some v = some w) (hw : Flat w) : Flat v :=
  Option.some.inj h ▸ hw

theorem checkValue_reservation (key : String) (e : ActiveReservation) :
    checkValue allowedReservationField ["active", key] 2 (marshalReservation e) = .ok () := by
  refine checkValue_record (by decide) (reservationFields_nodup e) (by rfl) fun k v hkv => ?_
  refine checkValue_flat (by decide) ?_
  simp only [reservationFields, List.mem_cons, Prod.mk.injEq, List.not_mem_nil, or_false] at hkv
  rcases hkv with ⟨-, h⟩ | ⟨-, h⟩ | ⟨-, h⟩ | ⟨-, h⟩ | ⟨-, h⟩ | ⟨-, h⟩ | ⟨-, h⟩ | ⟨-, h⟩ | ⟨-, h⟩ |
    ⟨-, h⟩ | ⟨-, h⟩ | ⟨-, h⟩ | ⟨-, h⟩ | ⟨-, h⟩ | ⟨-, h⟩ | ⟨-, h⟩ <;>
    first
    | exact flat_nonEmpty h
    | exact flat_nonFalse h
    | exact flat_nonZero h
    | exact flat_nonNil h
    | exact flat_some h trivial

theorem checkValue_intent (id : String) (e : Intent) :
    checkValue allowedQueueField ["intents", id] 2 (marshalIntent e) = .ok () := by
  refine checkValue_record (by decide) (intentFields_nodup e) (by rfl) fun k v hkv => ?_
  refine checkValue_flat (by decide) ?_
  simp only [intentFields, List.mem_cons, Prod.mk.injEq, List.not_mem_nil, or_false] at hkv
  rcases hkv with ⟨-, h⟩ | ⟨-, h⟩ | ⟨-, h⟩ | ⟨-, h⟩ | ⟨-, h⟩ | ⟨-, h⟩ | ⟨-, h⟩ <;>
    first
    | exact flat_nonEmpty h
    | exact flat_some h trivial

theorem checkValue_map {α : Type} {name : String} {f : α → Value} (m : Finmap fun _ : String => α)
    (hname : ∀ k, allowed [name] k)
    (hvalues : ∀ k a, checkValue allowed [name, k] 2 (f a) = .ok ()) :
    checkValue allowed [name] 1 (.obj (mapMembers f m)) = .ok () := by
  rw [checkValue, if_neg (by decide)]
  refine checkMembers_ok (fun k _ => ⟨hname k, by simp⟩) (nodup_mapMembers f m) fun k v hkv => ?_
  obtain ⟨a, -, rfl⟩ := mem_mapMembers hkv
  exact hvalues k a

theorem checkValue_reservations (s : ReservationState) :
    checkValue allowedReservationField [] 0 (marshalReservations s) = .ok () := by
  refine checkValue_record (by decide) (stateFields_nodup s) (by rfl) fun k v hkv => ?_
  simp only [stateFields, List.mem_cons, Prod.mk.injEq, List.not_mem_nil, or_false] at hkv
  rcases hkv with ⟨-, h⟩ | ⟨-, h⟩ | ⟨-, h⟩ | ⟨-, h⟩ | ⟨-, h⟩ | ⟨-, h⟩ | ⟨rfl, h⟩
  case inr.inr.inr.inr.inr.inr =>
    cases h
    exact checkValue_map s.active (fun _ => rfl) checkValue_reservation
  all_goals
    refine checkValue_flat (by decide) ?_
    first
    | exact flat_nonEmpty h
    | exact flat_some h trivial

theorem checkValue_queue (s : QueueState) :
    checkValue allowedQueueField [] 0 (marshalQueue s) = .ok () := by
  refine checkValue_record (by decide) (queueFields_nodup s) (by rfl) fun k v hkv => ?_
  simp only [queueFields, List.mem_cons, Prod.mk.injEq, List.not_mem_nil, or_false] at hkv
  rcases hkv with ⟨-, h⟩ | ⟨-, h⟩ | ⟨-, h⟩ | ⟨rfl, h⟩
  case inr.inr.inr =>
    cases h
    exact checkValue_map s.intents (fun _ => rfl) checkValue_intent
  all_goals exact checkValue_flat (by decide) (flat_some h trivial)

theorem decodeReservations_encoded (h : s.validate = .ok ()) :
    decodeReservations (.single reservationDataKey
      (String.ofList (print (marshalReservations s)))) = .ok s := by
  have hget : (ConfigMapData.single reservationDataKey
      (String.ofList (print (marshalReservations s)))).get reservationDataKey =
        String.ofList (print (marshalReservations s)) := by
    simp [ConfigMapData.single, ConfigMapData.get]
  unfold decodeReservations
  rw [reservations_readable h, if_neg (by simp), hget,
    String.toList_ofList, decode_print (checkValue_reservations s)]
  simp only [unmarshalReservations_marshal h, h]

theorem decodeQueue_encoded {s : QueueState} (h : s.validate = .ok ())
    (ht : ∀ id e, s.intents.lookup id = some e → e.createdAtUnix < 2 ^ 63) :
    decodeQueue s.globalLimit s.requesterLimit s.version (.single queueDataKey
      (String.ofList (print (marshalQueue s)))) = .ok s := by
  have hget : (ConfigMapData.single queueDataKey
      (String.ofList (print (marshalQueue s)))).get queueDataKey =
        String.ofList (print (marshalQueue s)) := by
    simp [ConfigMapData.single, ConfigMapData.get]
  unfold decodeQueue
  rw [queue_readable h ht, if_neg (by simp), hget,
    String.toList_ofList, decode_print (checkValue_queue s)]
  simp [unmarshalQueue_marshal h ht, h]

/-- What an encoder writes for an accepted state is read back as that state.  In-flight lists are
lists, so an absent and an empty one are the same; `CreatedAtUnix` is an `int64`. -/
theorem ledger_codec_round_trip :
    (∀ s : ReservationState, s.validate = .ok () → ∃ data, encodeReservations s = .ok data ∧
      decodeReservations (.single reservationDataKey data) = .ok s) ∧
    ∀ s : QueueState, s.validate = .ok () →
      (∀ id e, s.intents.lookup id = some e → e.createdAtUnix < 2 ^ 63) →
      ∃ data, encodeState s = .ok data ∧
        decodeQueue s.globalLimit s.requesterLimit s.version (.single queueDataKey data) = .ok s :=
  ⟨fun _ h => ⟨_, encodeReservations_ok h, decodeReservations_encoded h⟩,
    fun _ h ht => ⟨_, encodeState_ok h ht, decodeQueue_encoded h ht⟩⟩

end KovaService.Codec
