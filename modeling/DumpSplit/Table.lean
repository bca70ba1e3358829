/-
  The three tables, and what their dumps are split by.
-/
import DumpSplit.Record
import DumpSplit.Shard

namespace DumpSplit

/-- A table with a dump of its own. -/
inductive Table
  | user
  | article
  | userRead
  deriving DecidableEq

namespace Table

/-- The tables in the order in which their dumps are split. -/
def all : List Table := [user, article, userRead]

def name : Table → String
  | user => "user"
  | article => "article"
  | userRead => "user_read"

end Table

/-! ## Columns -/

/-- The user of a row of `user`. -/
def userUid : Column := ⟨2, "uid"⟩

/-- The region of a user. -/
def userRegion : Column := ⟨10, "region"⟩

/-- The article of a row of `article`. -/
def articleAid : Column := ⟨2, "aid"⟩

/-- The category of an article. -/
def articleCategory : Column := ⟨4, "category"⟩

/-- The user of a row of `user_read`. -/
def readUid : Column := ⟨2, "uid"⟩

/-! ## Values -/

/-- The region whose users live on a shard. -/
def Shard.region : Shard → String
  | one => "\"Beijing\""
  | two => "\"Hong Kong\""

/-- The category whose articles are on both shards. -/
def sharedCategory : String := "\"technology\""

end DumpSplit
