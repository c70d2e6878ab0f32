import TiledArray.Bitset
import TiledArray.BitsetRuns
import TiledArray.BitsetRefinement
import TiledArray.TileAdd
import TiledArray.Initialize
import TiledArray.RankLocal
import TiledArray.TensorPrint
import TiledArray.MpiCudaUm
