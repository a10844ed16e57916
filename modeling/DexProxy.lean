import DexProxy.Python.Str
import DexProxy.Python.Value
import DexProxy.Harbor.Api
import DexProxy.Harbor.Url
import DexProxy.Harbor.Adapter
import DexProxy.Harbor.Lifecycle
import DexProxy.Harbor.Handlers
import DexProxy.Harbor.Bridge
import DexProxy.Harbor.Service
import DexProxy.Harbor.Coroutine
import DexProxy.Harbor.Interleaving
import DexProxy.Harbor.Overlap
