/-!
The two status spaces of the kernel, restricted to the codes the modelled
functions return. `Errno` is the Linux space (`kernel/include/core/errno.h`),
used by the extension programs and the capability envelope; `Status` is the
native space (`kernel/include/ipc/ipc.h`, `A20_ERR_*`), used by handles,
channels and the cluster core. A C function that returns `-E` on failure is an
`Except` here.
-/

namespace A20OS

inductive Errno where
  | EPERM | ENOENT | E2BIG | ENOMEM | EACCES | EFAULT | EBUSY | EEXIST | EINVAL | EMFILE
  | ENOSPC | EOPNOTSUPP | EAGAIN | EPIPE | EDEADLK | ENOLCK | ERESTARTSYS | EFBIG | EINTR | EIDRM
  | ENOMSG | ETIMEDOUT | ESRCH | EBADF | ENOTDIR | ENAMETOOLONG
deriving DecidableEq, Repr

inductive Status where
  | badHandle | noMemory | access | fault | exists | invalidArgument | noSpace | wouldBlock
  | interrupted | canceled | typeMismatch | expired | notFound | clusterUnsupported
deriving DecidableEq, Repr

end A20OS
