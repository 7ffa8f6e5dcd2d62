import Agora.Proofs.Toggle.Total

namespace Agora.Board

open Agora.Store
open Agora.VoteToggle (total onMessage points gained)

def listing : Select :=
  { items :=
      [.expr (.column (some "m") "id") none "m.id",
        .expr (.column (some "m") "title") none "m.title",
        .expr (.column (some "m") "content") none "m.content",
        .expr (.column (some "m") "createdAt") none "m.\"createdAt\"",
        .expr (.column (some "u") "username") none "u.username",
        .expr (.coalesce (.sum "value" "votes" "messageId" (.column (some "m") "id"))
            (.value (.integer 0))) (some "voteCount")
          "COALESCE((SELECT SUM(v.value) FROM votes v WHERE v.\"messageId\" = m.id), 0)",
        .expr (.count "comments" "messageId" (.column (some "m") "id")) (some "commentCount")
          "(SELECT COUNT(*) FROM comments c WHERE c.\"messageId\" = m.id)"]
    source := some ⟨"messages", "m"⟩
    join := some { source := ⟨"users", "u"⟩, key := "id", outer := .column (some "m") "userId" }
    order := [(.column (some "m") "createdAt", true), (.column (some "m") "id", true)] }

theorem reads_listingSql : Reads listingSql (.select listing) 0 :=
  .of_spells
    (.append (.append (.append (.append (.append (.append (.append (.append (.append (.append
      (.append rfl rfl) rfl) rfl) rfl) rfl) rfl) rfl) rfl) rfl) rfl) rfl)
    (by decide +kernel) (by decide +kernel) (by decide +kernel)

def messageScope (r : Record) (author : Option Record) : Scope :=
  [{ name := "m", schema := Schema.messages, record := some r },
    { name := "u", schema := Schema.users, record := author }]

def authors (users : TableState) (r : Record) : List (Option Record) :=
  let found := users.records.filter fun u => (Value.integer u.id).equals (r.get "userId")
  if found.isEmpty then [none] else found.map some

def posts (db : Database) : List (Record × Option Record) :=
  (db.at Schema.messages).records.flatMap fun r =>
    (authors (db.at Schema.users) r).map fun author => (r, author)

def sortKey (r : Record) : List (Value × Bool) :=
  [(r.get "createdAt", true), (.integer r.id, true)]

def listed (db : Database) : List (Record × Option Record) :=
  (posts db).mergeSort fun p q => !Select.before (sortKey q.1) (sortKey p.1)

theorem mem_listed {db : Database} {r : Record} {author : Option Record} :
    (r, author) ∈ listed db ↔
      r ∈ (db.at Schema.messages).records ∧ author ∈ authors (db.at Schema.users) r := by
  simp only [listed, List.mem_mergeSort, posts, List.mem_flatMap, List.mem_map, Prod.mk.injEq]
  constructor
  · rintro ⟨x, hx, y, hy, rfl, rfl⟩
    exact ⟨hx, hy⟩
  · rintro ⟨hr, hauthor⟩
    exact ⟨r, hr, author, hauthor, rfl, rfl⟩

theorem authors_ne_nil (users : TableState) (r : Record) : authors users r ≠ [] := by
  unfold authors
  dsimp only
  split
  · simp
  · rename_i h
    simpa using h

theorem exists_listed {db : Database} {r : Record} (hr : r ∈ (db.at Schema.messages).records) :
    ∃ author, (r, author) ∈ listed db := by
  obtain ⟨author, hauthor⟩ := List.exists_mem_of_ne_nil _ (authors_ne_nil (db.at Schema.users) r)
  exact ⟨author, mem_listed.2 ⟨hr, hauthor⟩⟩

def shown (n : Int) : Json :=
  (Value.ofInt n).toJson

theorem shown_eq {n : Int} (hleast : Digits.leastInt64 ≤ n) (hgreatest : n ≤ Digits.greatestInt64) :
    shown n = .int n := by
  have hin : Digits.inInt64 n := by simp [Digits.inInt64, hleast, hgreatest]
  rw [shown, Value.ofInt, if_pos hin, Value.toJson, Int64.toInt_ofInt_of_le]
  · exact hleast
  · exact Int.lt_of_le_of_lt hgreatest (by decide)

def comments (t : TableState) (message : Int64) : Nat :=
  (t.records.filter (·.meets (onMessage message))).length

def messageRow (db : Database) (r : Record) (author : Option Record) : Row :=
  [("commentCount", shown (comments (db.at Schema.comments) r.id)),
    ("content", (r.get "content").toJson),
    ("createdAt", (r.get "createdAt").toJson),
    ("id", .int r.id.toInt),
    ("title", (r.get "title").toJson),
    ("username", (author.elim .null (·.get "username")).toJson),
    ("voteCount", shown (total (db.at Schema.votes) r.id))]

theorem messages_mem : Schema.messages ∈ Schema.tables := by
  simp [Schema.tables]

theorem users_mem : Schema.users ∈ Schema.tables := by
  simp [Schema.tables]

theorem comments_mem : Schema.comments ∈ Schema.tables := by
  simp [Schema.tables]

theorem fold_names : Read.fold "m" ≠ Read.fold "u" := by
  decide +kernel

theorem column_id : columnOf? Schema.messages "id" = some .id :=
  columnOf?_eq messages_mem (by simp [Schema.messages]) rfl

theorem column_createdAt :
    columnOf? Schema.messages "createdAt" = some (.timestamp "createdAt") :=
  columnOf?_eq messages_mem (by simp [Schema.messages]) rfl

section Names

variable {r : Record} {author : Option Record} {name : String} {c : Column}

theorem find_message (r : Record) (author : Option Record) (name : String) :
    (messageScope r author).find (some "m") name =
      ((columnOf? Schema.messages name).map fun c => (c, some r)).toList := by
  cases h : columnOf? Schema.messages name <;> simp [Scope.find, messageScope, fold_names, h]

theorem find_author (r : Record) (author : Option Record) (name : String) :
    (messageScope r author).find (some "u") name =
      ((columnOf? Schema.users name).map fun c => (c, author)).toList := by
  cases h : columnOf? Schema.users name <;> simp [Scope.find, messageScope, fold_names.symm, h]

theorem eval_message (h : columnOf? Schema.messages name = some c) (ctx : Context) :
    (Expr.column (some "m") name).eval { ctx with scope := messageScope r author } =
      r.get c.name := by
  simp [Expr.eval, Scope.value, find_message, h]

theorem type?_message (h : columnOf? Schema.messages name = some c) :
    (Expr.column (some "m") name).type? (messageScope r author) = some c.type := by
  simp [Expr.type?, find_message, h]

theorem shown_message (h : columnOf? Schema.messages name = some c) (ctx : Context) (n : Nat)
    (text : String) :
    Item.shown { ctx with scope := messageScope r author } n
      (.expr (.column (some "m") name) none text) = [(c.name, r.get c.name)] := by
  rw [Item.shown, eval_message h]
  simp [Item.label, find_message, h]

theorem shown_author (h : columnOf? Schema.users name = some c) (ctx : Context) (n : Nat)
    (text : String) :
    Item.shown { ctx with scope := messageScope r author } n
      (.expr (.column (some "u") name) none text) =
        [(c.name, author.elim .null (·.get c.name))] := by
  simp [Item.shown, Expr.eval, Scope.value, Item.label, find_author, h]

theorem holds_author (ctx : Context) (r u : Record) :
    (Condition.equal (.column (some "u") "id") (.column (some "m") "userId")).holds
      { ctx with scope := messageScope r (some u) } =
        (Value.integer u.id).equals (r.get "userId") := by
  have hid : columnOf? Schema.users "id" = some .id :=
    columnOf?_eq users_mem (by simp [Schema.users]) rfl
  have huser : columnOf? Schema.messages "userId" = some (.reference "userId" "users") :=
    columnOf?_eq messages_mem (by simp [Schema.messages]) rfl
  have hauthor : (Expr.column (some "u") "id").type? (messageScope r (some u)) = some .integer := by
    simp [Expr.type?, find_author, hid, Column.id]
  rw [Condition.holds, hauthor, type?_message huser, eval_message huser]
  simp [Expr.eval, Scope.value, find_author, hid, compared, Record.get, Column.id, Column.reference]

end Names

section Sum

variable {records : List Record}
  (h : ∀ r ∈ records, ∃ v : VoteValue, r.get "value" = .integer v.toInt64)
include h

theorem foldl_values (n : Int) :
    (records.map (·.get "value")).foldl (fun total v => match v with
      | .integer i => total + i.toInt
      | _ => total) n = n + (records.map points).sum := by
  induction records generalizing n with
  | nil => simp
  | cons r records ih =>
    obtain ⟨⟨v, hv⟩, hrest⟩ := List.forall_mem_cons.1 h
    rw [List.map_cons, List.foldl_cons, ih hrest, hv, List.map_cons, List.sum_cons,
      VoteToggle.points_of_value hv, add_assoc]

theorem sumOf_eq :
    Expr.sumOf ((records.map (·.get "value")).filter (!·.isNull)) =
      if records = [] then .null else .ofInt (records.map points).sum := by
  have hall : (records.map (·.get "value")).filter (!·.isNull) = records.map (·.get "value") := by
    refine List.filter_eq_self.2 fun x hx => ?_
    obtain ⟨r, hr, rfl⟩ := List.mem_map.1 hx
    obtain ⟨v, hv⟩ := h r hr
    rw [hv]
    rfl
  rw [hall]
  cases records with
  | nil => rfl
  | cons r records => exact congrArg Value.ofInt ((foldl_values h 0).trans (zero_add _))

end Sum

theorem joined_eq {ctx : Context} {j : LeftJoin} {b : Bound} {found : List Bound}
    (hfound : (Select.bind ctx.database j.source).filter (fun other =>
      (Condition.equal (.column (some j.source.name) j.key) j.outer).holds
        { ctx with scope := [b, other] }) = found) {t : TableState}
    (ht : ctx.database.table? j.source.table = some t) : Select.joined ctx j b =
      if found.isEmpty then [[b, { name := j.source.name, schema := t.schema, record := none }]]
      else found.map ([b, ·]) := by
  subst hfound
  unfold Select.joined
  simp only [ht]

theorem sorted_listing (ctx : Context) (db : Database) :
    Select.sorted ctx listing.order ((posts db).map fun p => messageScope p.1 p.2) =
      (listed db).map fun p => messageScope p.1 p.2 := by
  have hkeyed : ((posts db).map fun p => messageScope p.1 p.2).map (fun scope =>
      (listing.order.map fun key => (key.1.eval { ctx with scope }, key.2), scope)) =
        (posts db).map fun p => (sortKey p.1, messageScope p.1 p.2) := by
    rw [List.map_map]
    refine List.map_congr_left fun p _ => ?_
    simp only [Function.comp_apply, listing, List.map_cons, List.map_nil, eval_message column_id,
      eval_message column_createdAt]
    rfl
  have hsorted : Select.sorted ctx listing.order ((posts db).map fun p => messageScope p.1 p.2) =
      ((((posts db).map fun p => messageScope p.1 p.2).map fun scope =>
        (listing.order.map fun key => (key.1.eval { ctx with scope }, key.2), scope)).mergeSort
          fun a b => !Select.before b.1 a.1).map (·.2) := rfl
  -- the key of a row is that of its message, so sorting rows is sorting messages
  rw [hsorted, hkeyed, listed, ← List.map_mergeSort (r := fun p q : Record × Option Record =>
    !Select.before (sortKey q.1) (sortKey p.1)) (fun _ _ _ _ => rfl), List.map_map]
  rfl

section Evaluation

variable {s : Agora.Store} (hs : Ready s)
include hs

theorem bind_eq {t : Table} (ht : t ∈ Schema.tables) (name : String) :
    Select.bind s.database ⟨t.name, name⟩ = (s.database.at t).records.map fun r =>
      { name, schema := t, record := some r } := by
  simp [Select.bind, hs.shaped.table?_at ht, hs.shaped.at_schema ht]

theorem joined_listing (r : Record) :
    Select.joined (s.context []) ⟨⟨"users", "u"⟩, "id", .column (some "m") "userId"⟩
        { name := "m", schema := Schema.messages, record := some r } =
      (authors (s.database.at Schema.users) r).map (messageScope r) := by
  have htable : s.database.table? "users" = some (s.database.at Schema.users) :=
    hs.shaped.table?_at users_mem
  have hfound : (Select.bind s.database ⟨"users", "u"⟩).filter (fun other =>
      (Condition.equal (.column (some "u") "id") (.column (some "m") "userId")).holds
        { s.context [] with
          scope := [{ name := "m", schema := Schema.messages, record := some r }, other] }) =
      ((s.database.at Schema.users).records.filter fun u =>
        (Value.integer u.id).equals (r.get "userId")).map fun u =>
          { name := "u", schema := Schema.users, record := some u } := by
    have hbind : Select.bind s.database ⟨"users", "u"⟩ = _ := bind_eq hs users_mem "u"
    rw [hbind, List.filter_map]
    congr 1
    exact List.filter_congr fun u _ => holds_author (s.context []) r u
  have htable' : (s.context []).database.table? "users" = some (s.database.at Schema.users) := htable
  rw [joined_eq hfound htable', hs.shaped.at_schema users_mem, List.isEmpty_map, authors]
  dsimp only
  split
  · rfl
  · rw [List.map_map, List.map_map]
    rfl

theorem scopes_listing :
    listing.scopes (s.context []) = (posts s.database).map fun p => messageScope p.1 p.2 := by
  have hscopes : listing.scopes (s.context []) =
      (Select.bind s.database ⟨Schema.messages.name, "m"⟩).flatMap
        (Select.joined (s.context []) ⟨⟨"users", "u"⟩, "id", .column (some "m") "userId"⟩) := rfl
  rw [hscopes, bind_eq hs messages_mem, List.flatMap_map, posts, List.map_flatMap]
  congr 1
  funext r
  rw [joined_listing hs r, List.map_map]
  rfl

theorem matching_onMessage {t : Table} (ht : t ∈ Schema.tables) {c : Column}
    (hcolumn : columnOf? t "messageId" = some c) (hname : c.name = "messageId")
    (htype : c.type = .integer) (r : Record) (author : Option Record) :
    Expr.matching s.database t.name "messageId"
        ((Expr.column (some "m") "id").type? (messageScope r author))
        ((Expr.column (some "m") "id").eval { s.context [] with scope := messageScope r author }) =
      (s.database.at t).records.filter (·.meets (onMessage r.id)) := by
  rw [type?_message column_id, eval_message column_id]
  simp only [Expr.matching, hs.shaped.table?_at ht, hs.shaped.at_schema ht, hcolumn, hname, htype]
  refine List.filter_congr fun x _ => ?_
  simp [Record.meets, onMessage, compared, Column.id, Record.get]

theorem eval_commentCount (r : Record) (author : Option Record) :
    (Expr.count "comments" "messageId" (.column (some "m") "id")).eval
        { s.context [] with scope := messageScope r author } =
      .ofInt (comments (s.database.at Schema.comments) r.id) := by
  have hcolumn : columnOf? Schema.comments "messageId" = some (.reference "messageId" "messages") :=
    columnOf?_eq comments_mem (by simp [Schema.comments]) rfl
  have hmatching := matching_onMessage hs comments_mem hcolumn rfl rfl r author
  exact congrArg (fun found : List Record => Value.ofInt found.length) hmatching

theorem eval_voteCount (hl : Lawful (s.database.at Schema.votes)) (r : Record)
    (author : Option Record) :
    (Expr.coalesce (.sum "value" "votes" "messageId" (.column (some "m") "id"))
        (.value (.integer 0))).eval { s.context [] with scope := messageScope r author } =
      .ofInt (total (s.database.at Schema.votes) r.id) := by
  have hcolumn : columnOf? Schema.votes "messageId" = some (.reference "messageId" "messages") :=
    columnOf?_eq leaf_votes.mem (by simp [Schema.votes]) rfl
  have hmatching := matching_onMessage hs leaf_votes.mem hcolumn rfl rfl r author
  have hvalue : ((s.context []).database.table? "votes").bind
      (fun t => columnOf? t.schema "value") = some VoteToggle.valueColumn := by
    have htable : (s.context []).database.table? "votes" = _ := hs.shaped.table?_at leaf_votes.mem
    rw [htable, Option.bind_some, hs.shaped.at_schema leaf_votes.mem]
    exact columnOf?_eq leaf_votes.mem (by simp [Schema.votes, VoteToggle.valueColumn]) rfl
  have hsum : (Expr.sum "value" "votes" "messageId" (.column (some "m") "id")).eval
      { s.context [] with scope := messageScope r author } =
        Expr.sumOf ((((s.database.at Schema.votes).records.filter (·.meets (onMessage r.id))).map
          (·.get "value")).filter (!·.isNull)) := by
    have heval (ctx : Context) (c : Column)
        (h : (ctx.database.table? "votes").bind (fun t => columnOf? t.schema "value") = some c)
        (outer : Expr) : (Expr.sum "value" "votes" "messageId" outer).eval ctx = Expr.sumOf
          (((Expr.matching ctx.database "votes" "messageId" (outer.type? ctx.scope)
            (outer.eval ctx)).map (·.get c.name)).filter (!·.isNull)) := by
      rw [Expr.eval, h]
    rw [← hmatching]
    exact heval { s.context [] with scope := messageScope r author } _ hvalue _
  have hvotes : ∀ x ∈ (s.database.at Schema.votes).records.filter (·.meets (onMessage r.id)),
      ∃ v : VoteValue, x.get "value" = .integer v.toInt64 := by
    intro x hx
    have hproper := hl.proper x (List.mem_filter.1 hx).1
    rw [hs.shaped.at_schema leaf_votes.mem] at hproper
    exact VoteToggle.eq_of_admits (hproper.values VoteToggle.valueColumn (by decide))
  have hnull (n : Int) : (Value.ofInt n).isNull = false := by
    unfold Value.ofInt
    split <;> rfl
  rw [Expr.eval, hsum, sumOf_eq hvotes, total]
  split
  · rename_i hnone
    rw [hnone]
    rfl
  · rw [hnull]
    rfl

theorem row_listing (hl : Lawful (s.database.at Schema.votes)) (r : Record)
    (author : Option Record) (n : Nat) :
    toRow (Item.row { s.context [] with scope := messageScope r author } n listing.items) =
      messageRow s.database r author := by
  have htitle : columnOf? Schema.messages "title" = some (.text "title") :=
    columnOf?_eq messages_mem (by simp [Schema.messages]) rfl
  have hcontent : columnOf? Schema.messages "content" = some (.text "content") :=
    columnOf?_eq messages_mem (by simp [Schema.messages]) rfl
  have husername : columnOf? Schema.users "username" = some (.uniqueText "username") :=
    columnOf?_eq users_mem (by simp [Schema.users]) rfl
  have hrow : Item.row { s.context [] with scope := messageScope r author } n listing.items =
      [("id", .integer r.id), ("title", r.get "title"), ("content", r.get "content"),
        ("createdAt", r.get "createdAt"), ("username", author.elim .null (·.get "username")),
        ("voteCount", .ofInt (total (s.database.at Schema.votes) r.id)),
        ("commentCount", .ofInt (comments (s.database.at Schema.comments) r.id))] := by
    simp only [Item.row, listing, List.flatMap_cons, List.flatMap_nil, shown_message column_id,
      shown_message htitle, shown_message hcontent, shown_message column_createdAt,
      shown_author husername]
    rw [Item.shown, Item.shown, eval_voteCount hs hl, eval_commentCount hs]
    rfl
  rw [hrow]
  simp only [toRow, Json.Fields.ofList, List.map_cons, List.map_nil, List.foldl_cons,
    List.foldl_nil, Json.Fields.insert, String.reduceLT, String.reduceEq, if_true, if_false]
  rfl

theorem execute_listing (hl : Lawful (s.database.at Schema.votes)) :
    s.execute ⟨listingSql, []⟩ =
      (.ok ((listed s.database).map fun p => messageRow s.database p.1 p.2), s) := by
  have hrun : listing.run (s.context []) = .ok ((Select.sorted (s.context []) listing.order
      (listing.scopes (s.context []))).map fun scope => Item.row { s.context [] with scope }
        (listing.scopes (s.context [])).length listing.items) := by
    have hkept : (listing.scopes (s.context [])).filter (fun scope =>
        listing.conditions.all (·.holds { s.context [] with scope })) =
          listing.scopes (s.context []) := List.filter_eq_self.2 fun _ _ => rfl
    rw [Select.run, hkept]
    rfl
  have hperform : s.perform [] (.select listing) = .ok ((Select.sorted (s.context []) listing.order
      (listing.scopes (s.context []))).map fun scope => Item.row { s.context [] with scope }
        (listing.scopes (s.context [])).length listing.items, s) := by
    rw [perform, hrun]
    rfl
  rw [execute_eq reads_listingSql hs, hperform]
  dsimp only
  rw [scopes_listing hs, sorted_listing, List.map_map, List.map_map]
  refine congrArg (fun rows => (Except.ok rows, s)) (List.map_congr_left fun p _ => ?_)
  simp only [Function.comp_apply]
  exact row_listing hs hl p.1 p.2 _

end Evaluation

theorem listed_congr {db db' : Database} (hmessages : db'.at Schema.messages = db.at Schema.messages)
    (husers : db'.at Schema.users = db.at Schema.users) : listed db' = listed db := by
  simp only [listed, posts, hmessages, husers]

theorem shown_total {t : TableState} (ht : t.schema = Schema.votes) (hl : Lawful t)
    (hlength : t.records.length < 2 ^ 63) (message : Int64) :
    shown (total t message) = .int (total t message) := by
  obtain ⟨hleast, hgreatest⟩ := VoteToggle.total_bounds ht hl message
  apply shown_eq
  · rw [Digits.leastInt64]
    omega
  · rw [Digits.greatestInt64]
    omega

/-- The row of a message, before and after the votes on it have grown by some number. -/
structure Grown (db : Database) (n : Int64 → Int) (r : Record) (row row' : Row) : Prop where
  id : row.get? "id" = some (.int r.id.toInt)
  votes : row.get? "voteCount" = some (shown (total (db.at Schema.votes) r.id))
  votes' : row'.get? "voteCount" = some (shown (total (db.at Schema.votes) r.id + n r.id))
  comments : row.get? "commentCount" = some (shown (comments (db.at Schema.comments) r.id))
  other : ∀ name ≠ "voteCount", row'.get? name = row.get? name

theorem grown_messageRow {db db' : Database} {n : Int64 → Int}
    (htotal : ∀ m, total (db'.at Schema.votes) m = total (db.at Schema.votes) m + n m)
    (hcomments : db'.at Schema.comments = db.at Schema.comments) (r : Record)
    (author : Option Record) : Grown db n r (messageRow db r author) (messageRow db' r author) where
  id := by simp [messageRow, Json.Fields.get?]
  votes := by simp [messageRow, Json.Fields.get?]
  votes' := by simp [messageRow, Json.Fields.get?, htotal]
  comments := by simp [messageRow, Json.Fields.get?]
  other name hname := by
    simp only [messageRow, hcomments, Json.Fields.get?, List.find?_cons, hname.symm, decide_false]

section Run

variable {σ : Type} (synthesizer : Synthesizer σ) (options : CompilerOptions)
  {w : World σ Agora.Store}

/-- A run of votes moves the total of every message by what its calls answered. The listing shows
that and no other difference, in the same order, and it lists every message. -/
theorem vote_totals_conserved (hs : Ready w.store) (hl : Lawful (w.store.database.at Schema.votes))
    (requests : List VoteToggle.Request) :
    let run := Task.runEach (onStore synthesizer) (requests.map (·.task options)) w
    let db := w.store.database
    let db' := run.2.store.database
    let growth := fun message => gained message requests run.1
    (∀ message, total (db'.at Schema.votes) message =
        total (db.at Schema.votes) message + growth message) ∧
      (∀ reply ∈ run.1, ∀ v, reply ≠ .ok (.changed none v)) ∧
      (∃ rows rows', w.store.execute ⟨listingSql, []⟩ = (.ok rows, w.store) ∧
        run.2.store.execute ⟨listingSql, []⟩ = (.ok rows', run.2.store) ∧
        List.Forall₂ (fun row row' => ∃ r ∈ (db.at Schema.messages).records,
          Grown db growth r row row') rows rows' ∧
        ∀ r ∈ (db.at Schema.messages).records, ∃ row ∈ rows,
          row.get? "id" = some (.int r.id.toInt)) ∧
      ∀ d ∈ [db, db'], (d.at Schema.votes).records.length < 2 ^ 63 → ∀ message,
        shown (total (d.at Schema.votes) message) = .int (total (d.at Schema.votes) message) := by
  intro run db db' growth
  obtain ⟨hchanges, hpresent⟩ := VoteToggle.runEach_total synthesizer options requests hs hl
  have hsame {t : Table} (ht : t ∈ Schema.tables) (hname : t.name ≠ "votes") :
      db'.at t = db.at t := hchanges.other t ht fun h => hname (congrArg Table.name h)
  refine ⟨hchanges.total, hpresent, ⟨_, _, execute_listing hs hl,
    execute_listing hchanges.ready hchanges.lawful, ?_, fun r hr => ?_⟩, ?_⟩
  · have hlisted : listed db' = listed db :=
      listed_congr (hsame messages_mem (by decide)) (hsame users_mem (by decide))
    rw [hlisted, List.forall₂_map_left_iff, List.forall₂_map_right_iff, List.forall₂_same]
    intro p hp
    exact ⟨p.1, (mem_listed.1 hp).1,
      grown_messageRow hchanges.total (hsame comments_mem (by decide)) p.1 p.2⟩
  · obtain ⟨author, hauthor⟩ := exists_listed hr
    refine ⟨messageRow db r author, List.mem_map.2 ⟨(r, author), hauthor, rfl⟩, ?_⟩
    simp [messageRow, Json.Fields.get?]
  · simp only [List.forall_mem_cons]
    exact ⟨shown_total (hs.shaped.at_schema leaf_votes.mem) hl,
      shown_total (hchanges.ready.shaped.at_schema leaf_votes.mem) hchanges.lawful, nofun⟩

end Run

theorem vote_totals_conserved_changed :
    let t := VoteToggle.cast { schema := Schema.votes } 1 1 7 .up
    let db := seeded t { schema := Schema.reactions }
    let w : World Fixture Agora.Store :=
      { synthesis := {}, store := { database := db }, listing := { ttl := ReadCache.defaultTtl } }
    let requests : List VoteToggle.Request := [⟨1, 7, -1⟩, ⟨1, 7, 5⟩]
    let run := Task.runEach (onStore Fixture.synthesizer) (requests.map (·.task {})) w
    (Ready w.store ∧ Lawful (db.at Schema.votes)) ∧ total (db.at Schema.votes) 1 = 1 ∧
      total (run.2.store.database.at Schema.votes) 1 = -1 := by
  intro t db w requests run
  have hs : Ready w.store := ⟨rfl, VoteToggle.shaped_voted⟩
  have hl : Lawful (db.at Schema.votes) := VoteToggle.lawful_voted (by decide +kernel)
  have hvotes : db.at Schema.votes = t := VoteToggle.voted_votes
  have hbefore : total (db.at Schema.votes) 1 = 1 := by
    rw [hvotes]
    decide +kernel
  have hrests : Rests w.store (VoteToggle.voted 0 1 .up) := ⟨rfl, rfl, rfl⟩
  obtain ⟨w', hrun⟩ := VoteToggle.run_change Fixture.synthesizer hrests
  have hgrowth : gained 1 requests run.1 = -2 := by
    simp only [run, requests, List.map_cons, Task.runEach_cons _ hrun]
    rfl
  obtain ⟨htotal, -⟩ := vote_totals_conserved Fixture.synthesizer {} hs hl requests
  refine ⟨⟨hs, hl⟩, hbefore, ?_⟩
  calc total (run.2.store.database.at Schema.votes) 1
      = total (db.at Schema.votes) 1 + gained 1 requests run.1 := htotal 1
    _ = 1 + -2 := by rw [hbefore, hgrowth]
    _ = -1 := rfl

end Agora.Board
