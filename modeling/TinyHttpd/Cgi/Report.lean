import TinyHttpd.Cgi.Statements

/-!
# What the pages say about an update

`exe_update` returns one `int` for two things: the code of `mysql_query` where that is not
0, and the number of affected rows where it is.  `add_goods`, `add_type`, `change_god` and
`del_goods` take -1 for a failure, `create_table` every negative number, and the result of
`begin_connect` is not looked at.
-/

namespace Cgi

open CString

/-! ## The client library -/

/-- What the client library answers to one statement.  Only the texts of a page depend on
`error`. -/
structure Client where
  /-- `mysql_real_connect` returns a handle. -/
  connect : Bool
  /-- What `mysql_query` returns: 0 for a statement that was executed. -/
  query : Bytes → Int
  /-- `mysql_affected_rows`, behind a statement that was executed. -/
  affectedRows : Bytes → Nat
  /-- `mysql_error`, behind one that was not. -/
  error : Bytes → Bytes

/-- A piece of a page: a text of the program, or one of the library. -/
inductive Out where
  | text (s : String)
  | error (message : Bytes)
deriving DecidableEq

/-- `begin_connect`.  Its message goes to standard error. -/
def Client.beginConnect (db : Client) : Bool := db.connect

/-- `eft_num = mysql_affected_rows(..)`: the count is cut to an `int`. -/
def Client.rowCount (db : Client) (sql : Bytes) : Int := (db.affectedRows sql : Int).bmod (2 ^ 32)

/-- `exe_update`: what it returns and prints. -/
def Client.exeUpdate (db : Client) (sql : Bytes) : Int × List Out :=
  if db.query sql ≠ 0 then
    (db.query sql, [.text "<p> database error:", .error (db.error sql), .text "</p>\n"])
  else (db.rowCount sql, [])

/-- `create_table`. -/
def Client.createTable (db : Client) (sql : Bytes) : Bool := 0 ≤ (db.exeUpdate sql).1

/-! ## The callers -/

/-- The messages of a caller, and the page it leads to. -/
structure Messages where
  failed : String
  success : String
  page : String

/-- The script a caller prints around its update. -/
def Messages.report (m : Messages) (db : Client) (sql : Bytes) : List Out :=
  let _ := db.beginConnect
  let update := db.exeUpdate sql
  [.text "<script language=\"javascript\">\n"] ++ update.2 ++
    [.text (if update.1 = -1 then m.failed else m.success)] ++
    [.text m.page, .text "</script>\n"]

def addGoodsMessages : Messages where
  failed := "alert(\"insert failed!\")\n"
  success := "alert(\"insert success!\")\n"
  page := "window.location.href=\"god_list_cgi\"\n"

def addTypeMessages : Messages where
  failed := "alert(\"insert new type failed!\")\n"
  success := "alert(\"insert new type success!\")\n"
  page := "window.location.href=\"../index.html\"\n"

def changeGodMessages : Messages where
  failed := "alert(\"change failed!\")\n"
  success := "alert(\"change success!\")\n"
  page := "window.location.href=\"god_list_cgi\"\n"

def delGoodsMessages : Messages where
  failed := "alert(\"delete failed!\")\n"
  success := "alert(\"delete success!\")\n"
  page := "window.location.href=\"god_list_cgi\"\n"

/-- What `add_goods` prints. -/
def addGoodsPage (db : Client) (held : AddGoods) (dataString : Option Bytes) : List Out :=
  (addGoods held dataString).elim [] (addGoodsMessages.report db)

/-- What `add_type` prints. -/
def addTypePage (db : Client) (held : AddType) (dataString : Option Bytes) : List Out :=
  (addType held dataString).elim [] (addTypeMessages.report db)

/-- What `change_god` prints. -/
def changeGodPage (db : Client) (held : ChangeGod) (dataString : Option Bytes) : List Out :=
  (changeGod held dataString).elim [] (changeGodMessages.report db)

/-- What `del_goods` prints. -/
def delGoodsPage (db : Client) (held : DelGoods) (dataString : Option Bytes) : List Out :=
  (delGoods held dataString).elim [] (delGoodsMessages.report db)

/-! ## Success and failure told apart -/

/-- The success message is none of the other texts of its page. -/
structure Messages.Distinct (m : Messages) : Prop where
  failed : m.success ≠ m.failed
  others : m.success ∉ ["<script language=\"javascript\">\n", "<p> database error:", "</p>\n",
    m.page, "</script>\n"]

theorem messages_distinct :
    addGoodsMessages.Distinct ∧ addTypeMessages.Distinct ∧ changeGodMessages.Distinct ∧
      delGoodsMessages.Distinct :=
  ⟨⟨by decide, by decide⟩, ⟨by decide, by decide⟩,
    ⟨by decide, by decide⟩, ⟨by decide, by decide⟩⟩

/-- A caller prints its success message unless `exe_update` returns -1. -/
theorem Messages.Distinct.success_mem_iff {m : Messages} (h : m.Distinct) (db : Client)
    (sql : Bytes) : .text m.success ∈ m.report db sql ↔ (db.exeUpdate sql).1 ≠ -1 := by
  have hothers := h.others
  simp only [List.mem_cons, List.not_mem_nil, or_false, not_or] at hothers
  obtain ⟨hscript, herror, hclose, hpage, hend⟩ := hothers
  have houtput : .text m.success ∉ (db.exeUpdate sql).2 := by
    rw [Client.exeUpdate]
    split
    next => simp [herror, hclose]
    next => exact List.not_mem_nil
  by_cases hvalue : (db.exeUpdate sql).1 = -1
  · simp [Messages.report, houtput, hvalue, hscript, h.failed, hpage, hend]
  · simp [Messages.report, hvalue]

/-- The integer separates the outcomes for a test: of the codes only 0 passes for a
success, and every count does. -/
structure Separates (fails : Int → Prop) (db : Client) (sql : Bytes) : Prop where
  code : db.query sql ≠ 0 → fails (db.query sql)
  rows : db.query sql = 0 → ¬fails (db.rowCount sql)

theorem separates_iff (fails : Int → Prop) (db : Client) (sql : Bytes) :
    (¬fails (db.exeUpdate sql).1 ↔ db.query sql = 0) ↔ Separates fails db sql := by
  rw [Client.exeUpdate]
  by_cases hquery : db.query sql = 0
  · rw [if_neg (not_not_intro hquery), iff_true_right hquery]
    dsimp only
    exact ⟨fun h => ⟨fun hne => absurd hquery hne, fun _ => h⟩, fun h => h.rows hquery⟩
  · rw [if_pos hquery, iff_false_right hquery, Classical.not_not]
    dsimp only
    exact ⟨fun h => ⟨fun _ => h, fun heq => absurd heq hquery⟩, fun h => h.code hquery⟩

/-- For every outcome of the connection, the query and the count: a caller prints its
success message exactly for a statement that was executed when errors come as -1 and the
count is not -1 as an `int`; `create_table` returns true exactly for one when errors are
negative and the count is not. -/
theorem updates_reported_iff (db : Client) :
    (∀ held data sql, addGoods held data = some sql →
        ((.text addGoodsMessages.success ∈ addGoodsPage db held data ↔ db.query sql = 0) ↔
          Separates (· = -1) db sql)) ∧
      (∀ held data sql, addType held data = some sql →
        ((.text addTypeMessages.success ∈ addTypePage db held data ↔ db.query sql = 0) ↔
          Separates (· = -1) db sql)) ∧
      (∀ held data sql, changeGod held data = some sql →
        ((.text changeGodMessages.success ∈ changeGodPage db held data ↔ db.query sql = 0) ↔
          Separates (· = -1) db sql)) ∧
      (∀ held data sql, delGoods held data = some sql →
        ((.text delGoodsMessages.success ∈ delGoodsPage db held data ↔ db.query sql = 0) ↔
          Separates (· = -1) db sql)) ∧
      ∀ sql, (db.createTable sql = true ↔ db.query sql = 0) ↔ Separates (· < 0) db sql := by
  obtain ⟨hgoods, htype, hgod, hdel⟩ := messages_distinct
  refine ⟨fun held data sql h => ?_, fun held data sql h => ?_, fun held data sql h => ?_,
    fun held data sql h => ?_, fun sql => ?_⟩
  · rw [addGoodsPage, h, Option.elim_some, hgoods.success_mem_iff, separates_iff (· = -1)]
  · rw [addTypePage, h, Option.elim_some, htype.success_mem_iff, separates_iff (· = -1)]
  · rw [changeGodPage, h, Option.elim_some, hgod.success_mem_iff, separates_iff (· = -1)]
  · rw [delGoodsPage, h, Option.elim_some, hdel.success_mem_iff, separates_iff (· = -1)]
  · rw [← separates_iff (· < 0), Client.createTable, decide_eq_true_eq, Int.not_lt]

/-- A library that executes the first statement and refuses the second with that code. -/
def Client.refusing (code : Int) : Client where
  connect := true
  query sql := if sql = bytes "delete from goods where god_id=1;" then 0 else code
  affectedRows _ := 1
  error _ := bytes "refused"

/-- The first statement is reported as executed, the second as not. -/
theorem updates_reported_refused :
    (.text delGoodsMessages.success ∈
        delGoodsPage (Client.refusing (-1)) ⟨[]⟩ (some (bytes "god_id=1")) ↔
      (Client.refusing (-1)).query (bytes "delete from goods where god_id=1;") = 0) ∧
    (.text delGoodsMessages.success ∈
        delGoodsPage (Client.refusing (-1)) ⟨[]⟩ (some (bytes "god_id=2")) ↔
      (Client.refusing (-1)).query (bytes "delete from goods where god_id=2;") = 0) ∧
    (Client.refusing (-1)).query (bytes "delete from goods where god_id=2;") = -1 := by
  have hreported := (updates_reported_iff (Client.refusing (-1))).2.2.2.1 ⟨[]⟩
  have hexecuted : Separates (· = -1) (Client.refusing (-1))
      (bytes "delete from goods where god_id=1;") :=
    ⟨fun h => absurd (by decide) h, fun _ => by decide⟩
  have hcode : (Client.refusing (-1)).query (bytes "delete from goods where god_id=2;") = -1 := by
    decide
  have hrefused : Separates (· = -1) (Client.refusing (-1))
      (bytes "delete from goods where god_id=2;") :=
    ⟨fun _ => hcode, fun h => absurd (hcode.symm.trans h) (by decide)⟩
  exact ⟨(hreported (some (bytes "god_id=1")) _ (by decide)).mpr hexecuted,
    (hreported (some (bytes "god_id=2")) _ (by decide)).mpr hrefused, hcode⟩

/-- The library refuses with 1, as it does: every caller reports a success, and
`create_table` returns true. -/
theorem updates_misreported :
    (Client.refusing 1).query (bytes "delete from goods where god_id=2;") = 1 ∧
      .text delGoodsMessages.success ∈
        delGoodsPage (Client.refusing 1) ⟨[]⟩ (some (bytes "god_id=2")) ∧
      .text addTypeMessages.success ∈
        addTypePage (Client.refusing 1) ⟨[]⟩ (some (bytes "type_name=food")) ∧
      .text addGoodsMessages.success ∈
        addGoodsPage (Client.refusing 1) ⟨[], [], [], []⟩
          (some (bytes "god_name=pen&god_type=1&god_price=2.5&god_size=big")) ∧
      .text changeGodMessages.success ∈
        changeGodPage (Client.refusing 1) ⟨[], [], [], [], []⟩
          (some (bytes "god_id=1&god_name=pen&god_type=1&god_price=2.5&god_size=big")) ∧
      (Client.refusing 1).createTable (bytes "create table goods(god_id int);") = true := by
  decide

end Cgi
