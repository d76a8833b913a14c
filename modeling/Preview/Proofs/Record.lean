import Preview.Instance
import Preview.Proofs.Instant
import Preview.Proofs.JsonText
import Preview.Repository

/-
  Reading back the record of an instance.

  A record names all fields of its instance, so the instance
  that is read from it is the one that was written, and two
  instances with the same record are the same instance.

  Main declarations:
    * `Instance.ofRecord?_record`
    * `Instance.record_injective`
    * `Repository.decode_record`
-/

namespace Preview

------------------------------------------------------------
-- Tables of Texts
------------------------------------------------------------

namespace Json

/- The fields of a table of texts. -/
def textFields (es : List (String × String)) :
    List (String × Json) :=
  es.map (fun e => (e.1, string e.2))

/- Tables of texts have no numbers. -/
theorem textual_textFields (es : List (String × String)) :
    TextualFields (textFields es) := by
  induction es with
  | nil => trivial
  | cons e es ih => exact ⟨trivial, ih⟩

theorem rawFields_textFields (es : List (String × String)) :
    rawFields (textFields es) =
      es.map (fun e => (some e.1, .string (some e.2))) := by
  induction es with
  | nil => rfl
  | cons e es ih =>
      exact congrArg ((some e.1, Raw.string (some e.2)) :: ·) ih

/- The tree of a table of texts is read as that table. -/
theorem texts?_raw (t : Table String) :
    Raw.reader.texts? (raw (ofTexts t)) = some t := by
  have hKeys :
      Raw.keyed?
          (t.entries.map
            (fun e => (some e.1, Raw.string (some e.2)))) =
        some (t.entries.map
          (fun e => (e.1, Raw.string (some e.2)))) := by
    unfold Raw.keyed?
    rw [List.mapM_map]
    exact List.mapM_pure
  have hTexts :
      (t.entries.map
          (fun e => (e.1, Raw.string (some e.2)))).mapM
          (fun f => (Raw.reader.text? f.2).map (f.1, ·)) =
        some t.entries := by
    rw [List.mapM_map]
    change t.entries.mapM (fun e => pure (e.1, e.2)) = _
    rw [List.mapM_pure]
    simp
  change
    (Raw.keyed? (rawFields (textFields t.entries))).bind
      (fun fields =>
        (fields.mapM fun f =>
          (Raw.reader.text? f.2).map (f.1, ·)).bind
        fun entries => some (Table.ofList entries)) = some t
  rw [rawFields_textFields, hKeys, Option.bind_some, hTexts,
    Option.bind_some, Table.ofList_entries]

end Json

------------------------------------------------------------
-- Records
------------------------------------------------------------

namespace Instance

/- Records have no numbers in them. -/
theorem textual_encode (i : Instance) : i.encode.Textual := by
  have hVars : (Json.ofTexts i.vars).Textual :=
    Json.textual_textFields i.vars.entries
  exact
    ⟨trivial, trivial, trivial, trivial, hVars, trivial,
      trivial, trivial⟩

/- The tree of the record of an instance. -/
theorem raw_encode (i : Instance) :
    Json.raw i.encode =
      .object
        [(some "playbook_id", .string (some i.identity.playbook)),
          (some "id", .string (some i.identity.id)),
          (some "created_time", .string (some i.createdAt.text)),
          (some "expired_at", .string (some i.expiresAt.text)),
          (some "vars", Json.raw (.ofTexts i.vars)),
          (some "lock", .bool i.locked),
          (some "status", .string (some i.status.name))] := by
  unfold encode
  simp only [Json.raw, Json.rawFields]

theorem text?_string (s : Option String) :
    Json.Raw.reader.text? (.string s) = s :=
  rfl

theorem flag?_bool (b : Bool) :
    Json.Raw.reader.flag? (.bool b) = some b :=
  rfl

theorem choice?_string (s : Option String) :
    Json.Raw.reader.choice? (.string s) = s :=
  rfl

/- A record that names every field once has all its fields. -/
theorem record?_named
    (playbook id created expires vars locked status : Json.Raw) :
    Json.Raw.reader.record? recordFields
        (.object
          [(some "playbook_id", playbook), (some "id", id),
            (some "created_time", created),
            (some "expired_at", expires), (some "vars", vars),
            (some "lock", locked), (some "status", status)]) =
      some
        [("playbook_id", playbook), ("id", id),
          ("created_time", created), ("expired_at", expires),
          ("vars", vars), ("lock", locked),
          ("status", status)] := by
  rfl

/- The tree of a record is read as the instance. -/
theorem read?_raw (i : Instance) :
    read? Json.Raw.reader (Json.raw i.encode) = some i := by
  have hVars := Json.texts?_raw i.vars
  have hCreated := Instant.ofText?_text i.createdAt
  have hExpires := Instant.ofText?_text i.expiresAt
  have hStatus := Status.ofName?_name i.status
  unfold read?
  rw [raw_encode, record?_named]
  simp [Reader.required?, Reader.defaulted?,
    Entries.lookup_cons, readInstant?, readStatus?,
    text?_string, flag?_bool, choice?_string, hVars, hCreated,
    hExpires, hStatus]

/- Every instance is read back from its record. -/
theorem ofRecord?_record (i : Instance) :
    ofRecord? i.record = some i := by
  unfold ofRecord? record
  rw [Json.ofText?_text i.encode (textual_encode i),
    Option.bind_eq_bind, Option.bind_some, read?_raw]

/- A record belongs to one instance only. -/
theorem record_injective
    {i j : Instance}
    (h : i.record = j.record) :
    i = j := by
  have hRead := ofRecord?_record i
  rw [h, ofRecord?_record j] at hRead
  exact (Option.some.inj hRead).symm

end Instance

/- A record that is found anywhere is that of its instance. -/
theorem Repository.decode_record
    (path : String)
    (i : Instance) :
    decode path i.record = .ok i := by
  unfold decode
  rw [Instance.ofRecord?_record]

end Preview
