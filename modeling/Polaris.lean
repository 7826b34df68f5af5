import Polaris.Bolt.SortedMap
import Polaris.Bolt.Bucket
import Polaris.Store.Value
import Polaris.Store.Codec
import Polaris.Store.Handler
import Polaris.Store.Effect
import Polaris.Store.SpecCodec
import Polaris.Store.Save
import Polaris.Store.Frame
import Polaris.Store.Load
import Polaris.Store.Run
import Polaris.Store.Update
import Polaris.Store.Namespace
import Polaris.Naming.InstanceID
import Polaris.Naming.Query
import Polaris.SqlDb.Batch
import Polaris.SqlDb.Instance
import Polaris.Naming.Params
import Polaris.SqlDb.Retry
import Polaris.SqlDb.Fetch
import Polaris.SqlDb.Read
import Polaris.Store.NamespaceStore
import Polaris.Discover.Statis
import Polaris.SqlDb.Write
import Polaris.Store.NamespaceList
import Polaris.SqlDb.RetryTx
import Polaris.SqlDb.Common
import Polaris.SqlDb.MetaWrite
import Polaris.SqlDb.InstanceTables
import Polaris.Naming.FieldChecks
import Polaris.SqlDb.BatchUpdate
