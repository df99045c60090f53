import TinyHttpd.Cgi.Scan

/-!
# The statements of the CGI programs

`add_goods`, `add_type`, `change_god`, `del_goods`, `get_select_sql` and the GET branch of
`change_god_cgi`, up to the text that goes to `mysql_query`.  Each takes its fields out of
the request and puts them into the statement as they are.

The first four do not initialise the buffers of their fields; the parameter `held` is
what a reading of them gives before the scan.  A statement is `none` when there is none,
and when a word runs over the end of its buffer: the function goes on then, and what it
sends cannot be told.
-/

namespace Cgi

open CString

/-! ## `add_goods` -/

structure AddGoods where
  goodsName : Bytes
  goodsType : Bytes
  goodsPrice : Bytes
  goodsSize : Bytes
deriving DecidableEq

/-- The fields after the scan. -/
def AddGoods.scan (held : AddGoods) (dataString : Bytes) : Option AddGoods := do
  let words := scanPairs 4 (blankSeparators (cstr dataString))
  let goodsName ← stored 40 held.goodsName words[0]?
  let goodsType ← stored 40 held.goodsType words[1]?
  let goodsPrice ← stored 40 held.goodsPrice words[2]?
  let goodsSize ← stored 40 held.goodsSize words[3]?
  return ⟨goodsName, goodsType, goodsPrice, goodsSize⟩

def AddGoods.sql (f : AddGoods) : Bytes :=
  bytes "insert into goods(god_name,god_type,god_price,god_size) value('" ++ f.goodsName ++
    bytes "'," ++ f.goodsType ++ bytes "," ++ f.goodsPrice ++ bytes ",'" ++ f.goodsSize ++
    bytes "');"

/-- `add_goods`. -/
def addGoods (held : AddGoods) (dataString : Option Bytes) : Option Bytes :=
  dataString.bind fun dataString => (AddGoods.scan held dataString).map AddGoods.sql

/-! ## `add_type` -/

structure AddType where
  typeName : Bytes
deriving DecidableEq

def AddType.scan (held : AddType) (dataString : Bytes) : Option AddType :=
  (stored 100 held.typeName (scanAfter "type_name=" (cstr dataString))).map AddType.mk

def AddType.sql (f : AddType) : Bytes :=
  bytes "insert into goods_type(godt_name) value('" ++ f.typeName ++ bytes "');"

/-- `add_type`. -/
def addType (held : AddType) (dataString : Option Bytes) : Option Bytes :=
  dataString.bind fun dataString => (AddType.scan held dataString).map AddType.sql

/-! ## `change_god` -/

structure ChangeGod where
  goodsId : Bytes
  goodsName : Bytes
  goodsType : Bytes
  goodsPrice : Bytes
  goodsSize : Bytes
deriving DecidableEq

def ChangeGod.scan (held : ChangeGod) (dataString : Bytes) : Option ChangeGod := do
  let words := scanPairs 5 (blankSeparators (cstr dataString))
  let goodsId ← stored 40 held.goodsId words[0]?
  let goodsName ← stored 40 held.goodsName words[1]?
  let goodsType ← stored 40 held.goodsType words[2]?
  let goodsPrice ← stored 40 held.goodsPrice words[3]?
  let goodsSize ← stored 40 held.goodsSize words[4]?
  return ⟨goodsId, goodsName, goodsType, goodsPrice, goodsSize⟩

def ChangeGod.sql (f : ChangeGod) : Bytes :=
  bytes "update goods set god_name='" ++ f.goodsName ++ bytes "' , god_type=" ++ f.goodsType ++
    bytes " , god_price=" ++ f.goodsPrice ++ bytes " , god_size='" ++ f.goodsSize ++
    bytes "' where god_id=" ++ f.goodsId ++ bytes ";"

/-- `change_god`. -/
def changeGod (held : ChangeGod) (dataString : Option Bytes) : Option Bytes :=
  dataString.bind fun dataString => (ChangeGod.scan held dataString).map ChangeGod.sql

/-! ## `del_goods` -/

structure DelGoods where
  godId : Bytes
deriving DecidableEq

def DelGoods.scan (held : DelGoods) (dataString : Bytes) : Option DelGoods :=
  (stored 100 held.godId (scanAfter "god_id=" (cstr dataString))).map DelGoods.mk

def DelGoods.sql (f : DelGoods) : Bytes :=
  bytes "delete from goods where god_id=" ++ f.godId ++ bytes ";"

/-- `del_goods`. -/
def delGoods (held : DelGoods) (dataString : Option Bytes) : Option Bytes :=
  dataString.bind fun dataString => (DelGoods.scan held dataString).map DelGoods.sql

/-! ## `get_select_sql` -/

structure Filters where
  godId : Bytes
  godName : Bytes
  godType : Bytes
  godPriceL : Bytes
  godPriceH : Bytes
  godSize : Bytes
deriving DecidableEq

/-- The buffers of the filters are zeroed. -/
def Filters.scan (dataString : Bytes) : Option Filters := do
  let words := scanPairs 6 (blankSeparators (cstr dataString))
  let godId ← stored 40 [] words[0]?
  let godName ← stored 40 [] words[1]?
  let godType ← stored 40 [] words[2]?
  let godPriceL ← stored 40 [] words[3]?
  let godPriceH ← stored 40 [] words[4]?
  let godSize ← stored 40 [] words[5]?
  return ⟨godId, godName, godType, godPriceL, godPriceH, godSize⟩

/-- A filter that is neither empty nor at its default. -/
def isActive (value : Bytes) (default : String) : Bool :=
  0 < value.length && strcmp value (bytes default) != 0

def Filters.sql (f : Filters) : Bytes :=
  bytes ("select god_id,god_name,godt_name,god_price,god_size from goods " ++
      "inner join goods_type on god_type=godt_id where 1=1 ") ++
    (if isActive f.godId "xx" then bytes " and god_id=" ++ f.godId else []) ++
    (if isActive f.godName "xx" then
      bytes " and god_name like '%" ++ f.godName ++ bytes "%' " else []) ++
    (if isActive f.godType "-1" then bytes " and god_type=" ++ f.godType else []) ++
    (if isActive f.godPriceL "xx.xx" && isActive f.godPriceH "xx.xx" then
      bytes " and god_price between " ++ f.godPriceL ++ bytes " and " ++ f.godPriceH
    else if isActive f.godPriceL "xx.xx" then bytes " and god_price >= " ++ f.godPriceL
    else if isActive f.godPriceH "xx.xx" then bytes " and god_price <= " ++ f.godPriceH
    else []) ++
    (if isActive f.godSize "any" then bytes " and god_size = '" ++ f.godSize ++ bytes "' ;"
    else [])

/-- `get_select_sql`. -/
def getSelectSql : Option Bytes → Option Bytes
  | none =>
      some (bytes ("select god_id,god_name,godt_name,god_price,god_size from goods " ++
        "inner join goods_type on god_type=godt_id;"))
  | some dataString => (Filters.scan dataString).map Filters.sql

/-! ## The GET branch of `change_god_cgi` -/

structure ChangeForm where
  godId : Bytes
deriving DecidableEq

/-- The buffer of the id is zeroed. -/
def ChangeForm.scan (queryString : Bytes) : Option ChangeForm :=
  (stored 40 [] (scanAfter "god_id=" (cstr queryString))).map ChangeForm.mk

def ChangeForm.sql (f : ChangeForm) : Bytes :=
  bytes "select god_id,god_name,god_type,god_price,god_size from goods where god_id=" ++
    f.godId ++ bytes ";"

/-- The select of the record that is to be changed. -/
def changeForm (queryString : Bytes) : Option Bytes :=
  (ChangeForm.scan queryString).map ChangeForm.sql

end Cgi
